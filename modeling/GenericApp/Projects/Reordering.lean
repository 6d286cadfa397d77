import GenericApp.Projects.BoardOrder

/-!
# What `reorder_tasks` makes of a request

A request lists ids under statuses. It should be refused unless it lists each task of the project once, and else every
status should be listed as the request has it. The service compares the request with the first page of the project, and
numbers each column from the start, also where a status is in several columns.

So it does what it is asked for exactly where a full request is for a project that fits the page, with nothing before the
last column of a status but single tasks, made one after the other; and where another request does not list exactly the
first page of a larger project (`reordersAsAsked_iff`).

A database may list tasks of one place that were made at one time in any order; what is said of a listing is said of all
that it may return (`IsListing`).
-/

namespace GenericApp

open Py PlannerState

variable {db : PlannerDb} {s : PlannerState} {userId projectId : Uuid} {columns : List ProjectTaskReorderColumn}
  {status : TaskStatus}

/-! ### Requests -/

/-- The ids of a request. -/
def requestedIds (columns : List ProjectTaskReorderColumn) : List Uuid :=
  columns.flatMap ProjectTaskReorderColumn.taskIds

/-- The ids of a project. -/
def projectTaskIds (db : PlannerDb) (projectId : Uuid) : List Uuid :=
  (db.tasks.rows.filter fun task ↦ task.projectId = projectId).map ProjectTask.id

/-- The request lists each task of the project once. -/
def ListsEachOnce (db : PlannerDb) (projectId : Uuid) (columns : List ProjectTaskReorderColumn) : Prop :=
  (requestedIds columns).Perm (projectTaskIds db projectId)

/-- What is asked for of a status: its columns, one after the other. -/
def askedOrder (columns : List ProjectTaskReorderColumn) (status : TaskStatus) : List Uuid :=
  requestedIds (columns.filter fun column ↦ column.status = status)

/-- What `list_tasks_with_assignees` may return for a project, without a limit. -/
def IsListing (db : PlannerDb) (projectId : Uuid) (listed : List ProjectTask) : Prop :=
  listed.Perm (db.tasks.rows.filter fun task ↦ task.projectId = projectId) ∧
    listed.Pairwise fun task other ↦ taskKey task ≤ taskKey other

/-- **A request is met**: one that lists each task once succeeds, and every status is then listed as it has it; any other
raises, and nothing has changed. -/
structure ReordersAsAsked (s : PlannerState) (userId projectId : Uuid) (columns : List ProjectTaskReorderColumn) :
    Prop where
  full : ListsEachOnce s.db projectId columns →
    (∃ rows, (s.reorderTasks userId projectId columns).1 = .ok rows) ∧
      ∀ status listed, IsListing (s.reorderTasks userId projectId columns).2.db projectId listed →
        (listed.filter fun task ↦ task.status = status).map ProjectTask.id = askedOrder columns status
  other : ¬ListsEachOnce s.db projectId columns →
    (∃ raised, (s.reorderTasks userId projectId columns).1 = .error raised) ∧
      (s.reorderTasks userId projectId columns).2 = s

/-- When a task was made. -/
def madeAt (db : PlannerDb) (taskId : Uuid) : DateTime :=
  ((db.tasks.rows.find? fun task ↦ task.id = taskId).map ProjectTask.createdAt).getD 0

/-- One column before another of its status: it has a single task, made before the first task of the other. -/
def SingleBefore (db : PlannerDb) (column next : ProjectTaskReorderColumn) : Prop :=
  column.taskIds ≠ [] → next.taskIds ≠ [] →
    ∃ taskId first, column.taskIds = [taskId] ∧ next.taskIds.head? = some first ∧ madeAt db taskId < madeAt db first

/-- When a request is met: a full one is for a project that fits the page, and has single tasks only before the last
column of a status, made one after the other; any other does not list just the first page of a larger project. -/
structure Reorderable (db : PlannerDb) (projectId : Uuid) (columns : List ProjectTaskReorderColumn) : Prop where
  full : ListsEachOnce db projectId columns → (projectTaskIds db projectId).length ≤ maxTaskLimit ∧
    columns.Pairwise fun column next ↦ column.status = next.status → SingleBefore db column next
  other : ¬ListsEachOnce db projectId columns →
    ¬(maxTaskLimit < (projectTaskIds db projectId).length ∧ (requestedIds columns).Perm (knownTasks db projectId))

/-! ### The check -/

theorem isListing_listed (db : PlannerDb) (projectId : Uuid) :
    IsListing db projectId ((db.listAllTasksWithAssignees projectId).map Prod.fst) := by
  have hrows : (db.listAllTasksWithAssignees projectId).map Prod.fst =
      sortedBy taskKey (db.tasks.rows.filter fun task ↦ task.projectId = projectId) := by
    rw [listAllTasksWithAssignees_eq, List.map_map]
    exact List.map_id' _
  rw [hrows]
  exact ⟨List.perm_insertionSort _ _, pairwise_sortedBy⟩

theorem nodup_taskIds (db : PlannerDb) : (db.tasks.rows.map ProjectTask.id).Nodup :=
  List.pairwise_map.2 db.tasks.compat

theorem nodup_projectTaskIds : (projectTaskIds db projectId).Nodup :=
  (nodup_taskIds db).sublist (List.filter_sublist.map _)

theorem map_fst_places : (places columns).map (fun place ↦ place.1) = requestedIds columns := by
  rw [places, List.map_flatMap, requestedIds]
  refine List.flatMap_congr fun column _ ↦ ?_
  rw [List.map_map]
  exact List.zipIdx_map_fst 0 column.taskIds

theorem sortedIds_perm : ((sortedBy taskKey (db.tasks.rows.filter fun task ↦ task.projectId = projectId)).map
    ProjectTask.id).Perm (projectTaskIds db projectId) :=
  (List.perm_insertionSort _ _).map _

theorem knownTasks_eq_take : knownTasks db projectId =
    (((sortedBy taskKey (db.tasks.rows.filter fun task ↦ task.projectId = projectId)).map ProjectTask.id).take
      maxTaskLimit) := by
  rw [← List.map_take]
  exact List.map_map

/-- **The check** compares the request with the first page. -/
theorem checkReorder_iff_perm : checkReorder db projectId columns = .ok () ↔
    (requestedIds columns).Perm (knownTasks db projectId) := by
  have hnodup : (knownTasks db projectId).Nodup := by
    rw [knownTasks_eq_take]
    exact (sortedIds_perm.nodup_iff.2 nodup_projectTaskIds).sublist (List.take_sublist _ _)
  rw [checkReorder_eq_ok, ← map_fst_places]
  constructor
  · rintro ⟨-, hlength, hknown⟩
    have hsub : knownTasks db projectId ⊆ (places columns).map fun place ↦ place.1 := fun id hid ↦ by
      obtain ⟨place, hplace, rfl⟩ := hknown id hid
      exact List.mem_map_of_mem hplace
    refine ((List.subperm_of_subset hnodup hsub).perm_of_length_le ?_).symm
    rw [List.length_map]
    exact hlength.le
  · intro hperm
    refine ⟨fun place hplace ↦ hperm.mem_iff.1 (List.mem_map_of_mem hplace), ?_, fun id hid ↦ ?_⟩
    · rw [← hperm.length_eq, List.length_map]
    · exact List.mem_map.1 (hperm.mem_iff.2 hid)

/-- On a project that fits the page, all tasks are known. -/
theorem knownTasks_perm (h : (projectTaskIds db projectId).length ≤ maxTaskLimit) :
    (knownTasks db projectId).Perm (projectTaskIds db projectId) := by
  rw [knownTasks_eq_take, List.take_of_length_le (sortedIds_perm.length_eq.trans_le h)]
  exact sortedIds_perm

theorem length_knownTasks_le : (knownTasks db projectId).length ≤ maxTaskLimit := by
  rw [knownTasks_eq_take]
  exact List.length_take_le _ _

/-- What the owner's request does is decided by the check. -/
theorem reorderTasks_of_owner {project : Project} (columns : List ProjectTaskReorderColumn)
    (howner : s.db.getByIdForOwner projectId userId = some project) :
    (checkReorder s.db projectId columns = .ok () → (∃ rows, (s.reorderTasks userId projectId columns).1 = .ok rows) ∧
      (s.reorderTasks userId projectId columns).2.db.tasks.rows = s.db.tasks.rows.map (moved columns)) ∧
      (checkReorder s.db projectId columns ≠ .ok () →
        (∃ raised, (s.reorderTasks userId projectId columns).1 = .error raised) ∧
          (s.reorderTasks userId projectId columns).2 = s) := by
  obtain ⟨-, rfl, -⟩ := PlannerDb.getByIdForOwner_eq_some howner
  unfold reorderTasks
  rw [howner]
  dsimp only
  rcases hcheck : checkReorder s.db project.id columns with raised | ⟨⟩
  · exact ⟨fun h ↦ (nomatch h), fun _ ↦ ⟨⟨raised, rfl⟩, rfl⟩⟩
  · exact ⟨fun _ ↦ ⟨⟨_, rfl⟩, rows_reorder⟩, fun h ↦ absurd rfl h⟩

/-! ### Positions of a request -/

/-- The places that one column gives. -/
def placesOf (column : ProjectTaskReorderColumn) : List (Uuid × TaskStatus × ℤ) :=
  column.taskIds.zipIdx.map fun entry ↦ (entry.1, column.status, ((entry.2 : ℤ) + 1) * 1000)

theorem places_eq_flatMap (columns : List ProjectTaskReorderColumn) : places columns = columns.flatMap placesOf := rfl

/-- The place of a task in its column: its position, and when it was made. -/
def placeKey (db : PlannerDb) (place : Uuid × TaskStatus × ℤ) : ℤ ×ₗ DateTime := toLex (place.2.2, madeAt db place.1)

theorem mem_placesOf {column : ProjectTaskReorderColumn} {place : Uuid × TaskStatus × ℤ}
    (h : place ∈ placesOf column) : ∃ i : ℕ, column.taskIds[i]? = some place.1 ∧ place.2.2 = ((i : ℤ) + 1) * 1000 := by
  obtain ⟨⟨id, i⟩, hentry, rfl⟩ := List.mem_map.1 h
  exact ⟨i, List.mem_zipIdx_iff_getElem?.1 hentry, rfl⟩

theorem placesOf_mem {column : ProjectTaskReorderColumn} {id : Uuid} (i : ℕ) (h : column.taskIds[i]? = some id) :
    (id, column.status, ((i : ℤ) + 1) * 1000) ∈ placesOf column :=
  List.mem_map.2 ⟨(id, i), List.mem_zipIdx_iff_getElem?.2 h, rfl⟩

/-- The places of one column are in order. -/
theorem pairwise_placesOf (db : PlannerDb) (column : ProjectTaskReorderColumn) :
    (placesOf column).Pairwise fun place other ↦ placeKey db place < placeKey db other := by
  rw [List.pairwise_iff_getElem]
  intro i j hi hj hij
  simp only [placesOf, List.getElem_map, List.getElem_zipIdx, placeKey]
  refine Prod.Lex.toLex_lt_toLex.2 (.inl ?_)
  dsimp only
  omega

/-- The places of one column are before those of another where it has a single task, made before the first there. -/
theorem placesOf_before_iff {column next : ProjectTaskReorderColumn} :
    (∀ place ∈ placesOf column, ∀ other ∈ placesOf next, placeKey db place < placeKey db other) ↔
      SingleBefore db column next := by
  constructor
  · intro h hcolumn hnext
    obtain ⟨taskId, rest, hids⟩ := List.exists_cons_of_ne_nil hcolumn
    obtain ⟨first, others, hnextIds⟩ := List.exists_cons_of_ne_nil hnext
    have hfirst := @placesOf_mem next first 0 (by rw [hnextIds]; rfl)
    have hlt := h _ (@placesOf_mem column taskId 0 (by rw [hids]; rfl)) _ hfirst
    refine ⟨taskId, first, ?_, by rw [hnextIds]; rfl, ?_⟩
    · rcases rest with - | ⟨second, rest⟩
      · exact hids
      · -- a second task is behind the first of the next column
        have hsecond := h _ (@placesOf_mem column second 1 (by rw [hids]; rfl)) _ hfirst
        rcases Prod.Lex.toLex_lt_toLex.1 hsecond with hlt | ⟨heq, -⟩
        · exact absurd hlt (by dsimp only; omega)
        · exact absurd heq (by dsimp only; omega)
    · rcases Prod.Lex.toLex_lt_toLex.1 hlt with hlt | ⟨-, hlt⟩
      · exact absurd hlt (by dsimp only; omega)
      · exact hlt
  · intro h place hplace other hother
    obtain ⟨i, hi, hposition⟩ := mem_placesOf hplace
    obtain ⟨j, hj, hposition'⟩ := mem_placesOf hother
    have hcolumn : column.taskIds ≠ [] := fun hnil ↦ by
      rw [hnil] at hi
      exact nomatch hi
    have hnext : next.taskIds ≠ [] := fun hnil ↦ by
      rw [hnil] at hj
      exact nomatch hj
    obtain ⟨taskId, first, hids, hfirst, hlt⟩ := h hcolumn hnext
    rw [hids] at hi
    obtain ⟨hzero, hid⟩ : i = 0 ∧ taskId = place.1 := by
      rcases i with - | i
      · exact ⟨rfl, Option.some.inj hi⟩
      · exact nomatch hi
    refine Prod.Lex.toLex_lt_toLex.2 ?_
    rw [hposition, hposition', hzero, ← hid]
    rcases j with - | j
    · refine .inr ⟨rfl, ?_⟩
      rw [List.head?_eq_getElem?, hj] at hfirst
      rw [Option.some.inj hfirst]
      exact hlt
    · refine .inl ?_
      dsimp only
      omega

/-! ### The order -/

/-- The place of a task in the listing, by its id. -/
def keyAt (rows : List ProjectTask) (taskId : Uuid) : ℕ ×ₗ ℤ ×ₗ DateTime :=
  ((rows.find? fun task ↦ task.id = taskId).map taskKey).getD (toLex (0, toLex (0, 0)))

theorem find_of_mem_nodup {rows : List ProjectTask} {task : ProjectTask} (hnodup : (rows.map ProjectTask.id).Nodup)
    (htask : task ∈ rows) : (rows.find? fun other ↦ other.id = task.id) = some task := by
  rcases hfind : rows.find? fun other ↦ other.id = task.id with - | found
  · exact absurd (decide_eq_true rfl) (List.find?_eq_none.1 hfind task htask)
  · have hfound := List.find?_some hfind
    have hid : found.id = task.id := of_decide_eq_true hfound
    exact hfind.trans <| congrArg some (List.inj_on_of_nodup_map hnodup (List.mem_of_find?_eq_some hfind) htask hid)

theorem keyAt_of_mem {rows : List ProjectTask} {task : ProjectTask} (hnodup : (rows.map ProjectTask.id).Nodup)
    (htask : task ∈ rows) : keyAt rows task.id = taskKey task := by
  rw [keyAt, find_of_mem_nodup hnodup htask]
  rfl

theorem madeAt_of_mem {task : ProjectTask} (htask : task ∈ db.tasks.rows) : madeAt db task.id = task.createdAt := by
  rw [madeAt, find_of_mem_nodup (nodup_taskIds db) htask]
  rfl

theorem moved_frame (columns : List ProjectTaskReorderColumn) (task : ProjectTask) : (moved columns task).id = task.id ∧
    (moved columns task).projectId = task.projectId ∧ (moved columns task).createdAt = task.createdAt := by
  obtain ⟨status, position, heq⟩ := moved_eq columns task
  rw [heq]
  exact ⟨rfl, rfl, rfl⟩

theorem map_id_moved (columns : List ProjectTaskReorderColumn) (rows : List ProjectTask) :
    (rows.map (moved columns)).map ProjectTask.id = rows.map ProjectTask.id := by
  rw [List.map_map]
  exact List.map_congr_left fun task _ ↦ (moved_frame columns task).1

theorem nodup_moved_ids (columns : List ProjectTaskReorderColumn) (db : PlannerDb) :
    ((db.tasks.rows.map (moved columns)).map ProjectTask.id).Nodup := by
  rw [map_id_moved]
  exact nodup_taskIds db

theorem places_filter : (places columns).filter (fun place ↦ place.2.1 = status) =
    places (columns.filter fun column ↦ column.status = status) := by
  unfold places
  induction columns with
  | nil => rfl
  | cons column columns ih =>
    rw [List.flatMap_cons, List.filter_append, ih, List.filter_map]
    by_cases h : column.status = status
    · simp [h, Function.comp_def]
    · simp [h, Function.comp_def]

section Full

variable (hlists : ListsEachOnce db projectId columns)
include hlists

/-- Each task of the project is moved to its place. -/
theorem moved_place {task : ProjectTask} (htask : task ∈ db.tasks.rows) (hproject : task.projectId = projectId) :
    (task.id, (moved columns task).status, (moved columns task).position) ∈ places columns := by
  refine (moved_cases columns task).resolve_right fun hnone ↦ ?_
  have hmem : task.id ∈ projectTaskIds db projectId :=
    List.mem_map_of_mem (List.mem_filter.2 ⟨htask, decide_eq_true hproject⟩)
  rw [← hlists.mem_iff, ← map_fst_places] at hmem
  obtain ⟨place, hplace, hid⟩ := List.mem_map.1 hmem
  exact hnone.2 place hplace hid

/-- A place is that of a task of the project. -/
theorem exists_task_of_place {place : Uuid × TaskStatus × ℤ} (h : place ∈ places columns) :
    ∃ task ∈ db.tasks.rows, task.projectId = projectId ∧ task.id = place.1 ∧
      (moved columns task).status = place.2.1 ∧ (moved columns task).position = place.2.2 := by
  have hmem : place.1 ∈ projectTaskIds db projectId := by
    rw [← hlists.mem_iff, ← map_fst_places]
    exact List.mem_map_of_mem h
  obtain ⟨task, htask, hid⟩ := List.mem_map.1 hmem
  obtain ⟨hrow, hproject⟩ := List.mem_filter.1 htask
  have hnodup : ((places columns).map fun place ↦ place.1).Nodup := by
    rw [map_fst_places, hlists.nodup_iff]
    exact nodup_projectTaskIds
  have hplace := moved_place hlists hrow (of_decide_eq_true hproject)
  have heq := List.inj_on_of_nodup_map hnodup hplace h hid
  exact ⟨task, hrow, of_decide_eq_true hproject, hid, by rw [← heq], by rw [← heq]⟩

/-- The tasks that are in a status then are those that the request has there. -/
theorem askedOrder_perm (status : TaskStatus) : (askedOrder columns status).Perm
    ((((db.tasks.rows.map (moved columns)).filter fun task ↦ task.projectId = projectId).filter fun task ↦
      task.status = status).map ProjectTask.id) := by
  have hasked : askedOrder columns status =
      ((places columns).filter fun place ↦ place.2.1 = status).map fun place ↦ place.1 := by
    rw [places_filter, map_fst_places, askedOrder]
  have hrequested : (requestedIds columns).Nodup := hlists.nodup_iff.2 nodup_projectTaskIds
  rw [← map_fst_places] at hrequested
  refine (List.perm_ext_iff_of_nodup ?_ ?_).2 fun id ↦ ?_
  · rw [hasked]
    exact hrequested.sublist (List.filter_sublist.map _)
  · exact (nodup_moved_ids columns db).sublist ((List.filter_sublist.trans List.filter_sublist).map _)
  · rw [hasked]
    constructor
    · intro hid
      obtain ⟨place, hplace, rfl⟩ := List.mem_map.1 hid
      obtain ⟨hplace, hstatus⟩ := List.mem_filter.1 hplace
      obtain ⟨task, htask, hproject, hid, hmoved, -⟩ := exists_task_of_place hlists hplace
      have hframe := moved_frame columns task
      refine List.mem_map.2 ⟨moved columns task, List.mem_filter.2 ⟨List.mem_filter.2 ⟨List.mem_map_of_mem htask, ?_⟩, ?_⟩,
        hframe.1.trans hid⟩
      · exact decide_eq_true (hframe.2.1.trans hproject)
      · exact decide_eq_true (hmoved.trans (of_decide_eq_true hstatus))
    · intro hid
      obtain ⟨task, htask, rfl⟩ := List.mem_map.1 hid
      obtain ⟨htask, hstatus⟩ := List.mem_filter.1 htask
      obtain ⟨htask, hproject⟩ := List.mem_filter.1 htask
      obtain ⟨old, hold, rfl⟩ := List.mem_map.1 htask
      have hframe := moved_frame columns old
      have hplace := moved_place hlists hold (hframe.2.1.symm.trans (of_decide_eq_true hproject))
      exact List.mem_map.2 ⟨_, List.mem_filter.2 ⟨hplace, hstatus⟩, hframe.1.symm⟩

/-- The place of a task in the listing is that which the request gives it. -/
theorem keyAt_lt_iff {place other : Uuid × TaskStatus × ℤ} (hplace : place ∈ places columns)
    (hother : other ∈ places columns) (hstatus : place.2.1 = other.2.1) :
    keyAt (db.tasks.rows.map (moved columns)) place.1 < keyAt (db.tasks.rows.map (moved columns)) other.1 ↔
      placeKey db place < placeKey db other := by
  have hkey {place : Uuid × TaskStatus × ℤ} (h : place ∈ places columns) :
      keyAt (db.tasks.rows.map (moved columns)) place.1 =
        toLex (PlannerDb.statusOrder place.2.1, placeKey db place) := by
    obtain ⟨task, htask, -, hid, hstatus, hposition⟩ := exists_task_of_place hlists h
    have hframe := moved_frame columns task
    rw [← hid, ← hframe.1, keyAt_of_mem (nodup_moved_ids columns db) (List.mem_map_of_mem htask), taskKey, hstatus,
      hposition, hframe.2.2, ← madeAt_of_mem htask, hid]
    rfl
  rw [hkey hplace, hkey hother, hstatus, Prod.Lex.toLex_lt_toLex]
  exact ⟨fun h ↦ (h.resolve_left (lt_irrefl _)).2, fun h ↦ .inr ⟨rfl, h⟩⟩

/-- What is asked for is in order exactly where single tasks only stand before the last column. -/
theorem askedOrder_strict_iff (status : TaskStatus) :
    ((askedOrder columns status).Pairwise fun id other ↦ keyAt (db.tasks.rows.map (moved columns)) id <
        keyAt (db.tasks.rows.map (moved columns)) other) ↔
      (columns.filter fun column ↦ column.status = status).Pairwise (SingleBefore db) := by
  have hasked : askedOrder columns status =
      (places (columns.filter fun column ↦ column.status = status)).map fun place ↦ place.1 := by
    rw [map_fst_places, askedOrder]
  have hkeys : ((places (columns.filter fun column ↦ column.status = status)).Pairwise fun place other ↦
      keyAt (db.tasks.rows.map (moved columns)) place.1 < keyAt (db.tasks.rows.map (moved columns)) other.1) ↔
      (places (columns.filter fun column ↦ column.status = status)).Pairwise fun place other ↦
        placeKey db place < placeKey db other := by
    refine List.Pairwise.iff_of_mem fun {place other} hplace hother ↦ ?_
    rw [← places_filter] at hplace hother
    obtain ⟨hplace, hstatus⟩ := List.mem_filter.1 hplace
    obtain ⟨hother, hstatus'⟩ := List.mem_filter.1 hother
    exact keyAt_lt_iff hlists hplace hother ((of_decide_eq_true hstatus).trans (of_decide_eq_true hstatus').symm)
  rw [hasked, List.pairwise_map, hkeys, places_eq_flatMap, List.pairwise_flatMap]
  refine ⟨fun h ↦ h.2.imp fun hbefore ↦ placesOf_before_iff.1 hbefore, fun h ↦
    ⟨fun column _ ↦ pairwise_placesOf db column, h.imp fun hbefore ↦ placesOf_before_iff.2 hbefore⟩⟩

/-- **All listings of a status are as asked for** exactly where what is asked for is in order. -/
theorem listings_iff {db' : PlannerDb} (hrows : db'.tasks.rows = db.tasks.rows.map (moved columns))
    (status : TaskStatus) :
    (∀ listed, IsListing db' projectId listed →
        (listed.filter fun task ↦ task.status = status).map ProjectTask.id = askedOrder columns status) ↔
      (columns.filter fun column ↦ column.status = status).Pairwise (SingleBefore db) := by
  rw [← askedOrder_strict_iff hlists]
  have hasked := askedOrder_perm hlists status
  have hnodup := nodup_moved_ids columns db
  rw [← hrows] at hasked hnodup ⊢
  -- sorting tasks is sorting their ids
  have hkeys (part : List ProjectTask) (hpart : ∀ task ∈ part, task ∈ db'.tasks.rows) :
      (sortedBy taskKey part).map ProjectTask.id = sortedBy (keyAt db'.tasks.rows) (part.map ProjectTask.id) := by
    refine map_sortedBy fun task htask other hother ↦ ?_
    rw [keyAt_of_mem hnodup (hpart task htask), keyAt_of_mem hnodup (hpart other hother)]
  constructor
  · intro h
    have hsorted (part : List ProjectTask) (hperm : part.Perm (db'.tasks.rows.filter fun task ↦
        task.projectId = projectId)) : sortedBy (keyAt db'.tasks.rows)
          ((part.filter fun task ↦ task.status = status).map ProjectTask.id) = askedOrder columns status := by
      have hlisted := h (sortedBy taskKey part) ⟨(List.perm_insertionSort _ _).trans hperm, pairwise_sortedBy⟩
      rw [filter_sortedBy, hkeys] at hlisted
      · exact hlisted
      · exact fun task htask ↦ (List.mem_filter.1 (hperm.mem_iff.1 (List.mem_filter.1 htask).1)).1
    have hreverse := hsorted _ (List.reverse_perm _)
    rw [List.filter_reverse, List.map_reverse] at hreverse
    exact strict_of_sortedBy_reverse
      (hnodup.sublist ((List.filter_sublist.trans List.filter_sublist).map _)) (hsorted _ (.refl _)) hreverse
  · intro hstrict listed hlisted
    have hmem (task : ProjectTask) (htask : task ∈ listed) : task ∈ db'.tasks.rows :=
      (List.mem_filter.1 (hlisted.1.mem_iff.1 htask)).1
    refine @eq_of_strict _ _ _ (keyAt db'.tasks.rows) _ _ ?_ hstrict ?_
    · rw [List.pairwise_map]
      refine (hlisted.2.filter _).imp_of_mem fun {task other} htask hother hle ↦ ?_
      rw [keyAt_of_mem hnodup (hmem task (List.mem_filter.1 htask).1),
        keyAt_of_mem hnodup (hmem other (List.mem_filter.1 hother).1)]
      exact hle
    · exact ((hlisted.1.filter _).map _).trans hasked.symm

end Full

/-- **`reorder_tasks` by the owner does what it is asked for** exactly where the request is for a project that fits the
page and has single tasks only, made one after the other, before the last column of a status; or where a request that is
not full does not list just the first page of a larger project. -/
theorem reordersAsAsked_iff {project : Project} (howner : s.db.getByIdForOwner projectId userId = some project) :
    ReordersAsAsked s userId projectId columns ↔ Reorderable s.db projectId columns := by
  obtain ⟨haccepted, hrefused⟩ := reorderTasks_of_owner columns howner
  constructor
  · refine fun h ↦ ⟨fun hlists ↦ ?_, fun hnot hpage ↦ ?_⟩
    · obtain ⟨⟨rows, hok⟩, horder⟩ := h.full hlists
      have hcheck : checkReorder s.db projectId columns = .ok () := by
        by_contra hcheck
        obtain ⟨raised, hraised⟩ := (hrefused hcheck).1
        exact nomatch hok.symm.trans hraised
      have hlength := ((checkReorder_iff_perm.1 hcheck).symm.trans hlists).length_eq
      refine ⟨hlength.symm.trans_le length_knownTasks_le, ?_⟩
      have hrows := (haccepted hcheck).2
      have hpairs (status : TaskStatus) := List.pairwise_filter.1 ((listings_iff hlists hrows status).1 (horder status))
      have hall : ∀ status, columns.Pairwise fun column next ↦ column.status = status → next.status = status →
          SingleBefore s.db column next := fun status ↦
        (hpairs status).imp fun h hcolumn hnext ↦ h (decide_eq_true hcolumn) (decide_eq_true hnext)
      rw [List.pairwise_iff_getElem]
      intro i j hi hj hij hstatus
      exact List.pairwise_iff_getElem.1 (hall _) i j hi hj hij rfl hstatus.symm
    · obtain ⟨rows, hok⟩ := (haccepted (checkReorder_iff_perm.2 hpage.2)).1
      obtain ⟨raised, hraised⟩ := (h.other hnot).1
      exact nomatch hok.symm.trans hraised
  · refine fun h ↦ ⟨fun hlists ↦ ?_, fun hnot ↦ hrefused fun hcheck ↦ ?_⟩
    · obtain ⟨hfits, hpairs⟩ := h.full hlists
      obtain ⟨hok, hrows⟩ := haccepted (checkReorder_iff_perm.2 (hlists.trans (knownTasks_perm hfits).symm))
      refine ⟨hok, fun status ↦ (listings_iff hlists hrows status).2 ?_⟩
      refine List.pairwise_filter.2 (hpairs.imp fun h hcolumn hnext ↦ h ?_)
      exact (of_decide_eq_true hcolumn).trans (of_decide_eq_true hnext).symm
    · have hperm := checkReorder_iff_perm.1 hcheck
      refine h.other hnot ⟨?_, hperm⟩
      by_contra hfits
      exact hnot (hperm.trans (knownTasks_perm (not_lt.1 hfits)))

/-- Two columns of one status, each with a single task. -/
theorem reordersAsAsked_singles : ReordersAsAsked reorderedBoard 1 100 [⟨.done, [200]⟩, ⟨.done, [201]⟩] := by
  have howner : ∃ project, reorderedBoard.db.getByIdForOwner 100 1 = some project := ⟨_, by rfl⟩
  obtain ⟨project, howner⟩ := howner
  refine (reordersAsAsked_iff howner).2 ⟨fun _ ↦ ⟨by decide +kernel, ?_⟩, fun hnot ↦ absurd ?_ hnot⟩
  · refine List.pairwise_cons.2 ⟨fun next hnext _ _ _ ↦ ?_, List.pairwise_singleton _ _⟩
    rw [List.mem_singleton.1 hnext]
    exact ⟨200, 201, rfl, rfl, by decide +kernel⟩
  · unfold ListsEachOnce
    decide +kernel

/-- A project with three tasks. -/
def threeTaskBoard : PlannerState :=
  (((onePlanner.after (.createProject 1 "Launch" none none ⟨100, 0, 1⟩)).after
    (.createTask 1 100 { title := "Write it up" } ⟨200, 0, 2⟩)).after
    (.createTask 1 100 { title := "Send it" } ⟨201, 0, 3⟩)).after
    (.createTask 1 100 { title := "Wait" } ⟨202, 0, 4⟩)

/-- **Two columns of one status are mixed**: the first task of the second comes before the second of the first. -/
theorem reorder_mixes_columns :
    ¬ReordersAsAsked threeTaskBoard 1 100 [⟨.todo, [200, 201]⟩, ⟨.todo, [202]⟩] := by
  intro h
  have hlists : ListsEachOnce threeTaskBoard.db 100 [⟨.todo, [200, 201]⟩, ⟨.todo, [202]⟩] := by
    unfold ListsEachOnce
    decide +kernel
  have hasked := (h.full hlists).2 .todo _ (isListing_listed _ 100)
  have hlisted : (((threeTaskBoard.reorderTasks 1 100 [⟨.todo, [200, 201]⟩, ⟨.todo, [202]⟩]).2.db.listAllTasksWithAssignees
      100).map Prod.fst |>.filter fun task ↦ task.status = .todo).map ProjectTask.id = [200, 202, 201] := by
    decide +kernel
  rw [hlisted] at hasked
  exact absurd hasked (by decide)

end GenericApp
