import GenericApp.Foundation.Paging
import GenericApp.Foundation.Text
import GenericApp.Rag.IngestionJob
import GenericApp.Workers.JobService
import Mathlib.Data.Prod.Lex

/-!
# The listing of the jobs console

`list_jobs` reads the newest 500 rows of either table, filters what it has read, sorts it by the texts of the
creation times and cuts a page out. A job behind 500 newer ones of its table is not read, whatever the filters
select. And rows of one creation time come from the database in an order that no query fixes: the next page may be
cut out of another.

The listing is complete if and only if neither matters (`listsEveryJob_iff`). The jobs of the workers come first
among those of one time, since the sort is stable; so the orders that are left open are those of one table and one
time (`rank`).
-/

namespace GenericApp

open Py Paging

/-! ### Console states -/

/-- `ApplicationJob.status` as it is stored. -/
def JobStatus.text : JobStatus → String
  | .queued => "queued"
  | .running => "running"
  | .succeeded => "succeeded"
  | .failed => "failed"
  | .deadLetter => "dead_letter"
  | .cancelled => "cancelled"

/-- `IngestionJobStatus.value` -/
def IngestionJobStatus.text : IngestionJobStatus → String
  | .pending => "pending"
  | .running => "running"
  | .completed => "completed"
  | .failed => "failed"
  | .cancelled => "cancelled"

/-- `QUEUE_BY_JOB_TYPE.get(job_type, "default")` -/
def queueByJobType : String → String
  | "email" => "email"
  | "rag-indexing" => "ingestion"
  | "rag-cleanup" => "cleanup"
  | "rag-index-retention" => "cleanup"
  | "chat-retention" => "cleanup"
  | "idempotency-cleanup" => "cleanup"
  | "ai-evaluation" => "evaluation"
  | "ai-generation" => "ai"
  | "memory-extraction" => "memory"
  | "outbox-dispatch" => "default"
  | _ => "default"

section Serialize

variable (S : Settings) (isoformat : DateTime → Text) (now : DateTime)

/-- `_console_state_for_application` -/
def consoleStateForApplication (job : ApplicationJob) : String :=
  if job.status = .running ∧ isStaleRunning S job now = true then "stale"
  else
    match job.status with
    | .queued => if now < job.availableAt ∧ 0 < job.attempts then "retrying" else "queued"
    | .succeeded => "succeeded"
    | .failed => "failed"
    | .deadLetter => "failed"
    | .cancelled => "cancelled"
    | .running => "running"

/-- `_console_state_for_rag` -/
def consoleStateForRag (job : RagIngestionJob) : String :=
  match job.status with
  | .pending => "queued"
  | .running =>
    match job.heartbeatAt.or job.startedAt with
    | none => "stale"
    | some heartbeat => if heartbeat ≤ now - timedelta S.outboxDispatchLeaseSeconds then "stale" else "running"
  | .completed => "succeeded"
  | .failed => "failed"
  | .cancelled => "cancelled"

/-- Of the dictionary of a job, what it is listed by. -/
structure JobItem where
  source : String
  id : Uuid
  jobType : String
  queue : String
  state : String
  rawStatus : String
  createdAt : Text
deriving DecidableEq

/-- `_serialize_application` -/
def serializeApplication (job : ApplicationJob) : JobItem where
  source := "application"
  id := job.id
  jobType := job.jobType
  queue := queueByJobType job.jobType
  state := consoleStateForApplication S now job
  rawStatus := job.status.text
  createdAt := isoformat job.createdAt

/-- `_serialize_rag` -/
def serializeRag (job : RagIngestionJob) : JobItem where
  source := "rag_ingestion"
  id := job.id
  jobType := "rag-indexing"
  queue := "ingestion"
  state := consoleStateForRag S now job
  rawStatus := job.status.text
  createdAt := isoformat job.createdAt

end Serialize

/-! ### Filters -/

/-- The filters but for the project. -/
structure JobFilters where
  status : Option String := none
  jobType : Option String := none
  queue : Option String := none
  failedOnly : Bool := false
  createdAfter : Option DateTime := none
  createdBefore : Option DateTime := none

/-- `_apply_filters` -/
def applyFilters (f : JobFilters) (items : List JobItem) : List JobItem :=
  let filtered :=
    match given f.status with
    | none => items
    | some status =>
      if status = "failed" then
        items.filter fun item ↦ ["failed", "dead_letter"].contains item.state || item.rawStatus = "dead_letter"
      else items.filter fun item ↦ item.state = status
  let filtered :=
    match given f.jobType with
    | none => filtered
    | some jobType => filtered.filter fun item ↦ item.jobType = jobType
  let filtered :=
    match given f.queue with
    | none => filtered
    | some queue => filtered.filter fun item ↦ item.queue = queue
  if f.failedOnly then
    filtered.filter fun item ↦ ["failed", "stale"].contains item.state || item.rawStatus = "dead_letter"
  else filtered

/-- `created_at >= created_after` and `created_at <= created_before`, where they are given. -/
def JobFilters.inRange (f : JobFilters) (createdAt : DateTime) : Bool :=
  f.createdAfter.all (· ≤ createdAt) && f.createdBefore.all (createdAt ≤ ·)

/-- The clauses of `_list_application_jobs`. -/
def applicationClauses (f : JobFilters) (job : ApplicationJob) : Bool :=
  (given f.jobType).all (job.jobType = ·) && f.inRange job.createdAt

/-- The clauses of `_list_rag_jobs`. -/
def ragClauses (f : JobFilters) (job : RagIngestionJob) : Bool := f.inRange job.createdAt

/-- What `ORDER BY created_at DESC LIMIT 500` may be answered with. -/
def IsAnswer {ρ : Type} (createdAt : ρ → DateTime) (rows answer : List ρ) : Prop :=
  ∃ S, Ordering (fun row ↦ OrderDual.toDual (createdAt row)) rows S ∧ answer = S.take 500

/-- `list_jobs`, given what the two tables answer: a page, and the total. -/
def listJobs (S : Settings) (isoformat : DateTime → Text) (f : JobFilters) (limit offset : ℕ) (now : DateTime)
    (applicationRows : List ApplicationJob) (ragRows : List RagIngestionJob) : List JobItem × ℕ :=
  let items := applicationRows.map (serializeApplication S isoformat now) ++ ragRows.map (serializeRag S isoformat now)
  let items := applyFilters f items
  let items := sortedBy (fun item ↦ OrderDual.toDual item.createdAt) items
  ((items.drop offset).take limit, items.length)

/-! ### What is to be listed -/

/-- The two tables, with their primary keys. -/
structure JobStore where
  applicationJobs : List ApplicationJob
  ragIngestionJobs : List RagIngestionJob
  applicationIds : (applicationJobs.map ApplicationJob.id).Nodup
  ragIds : (ragIngestionJobs.map RagIngestionJob.id).Nodup

/-- A row of either table. -/
abbrev ConsoleJob := ApplicationJob ⊕ RagIngestionJob

def ConsoleJob.createdAt : ConsoleJob → DateTime
  | .inl job => job.createdAt
  | .inr job => job.createdAt

/-- The newest first, and of one time the jobs of the workers. -/
def ConsoleJob.rank (job : ConsoleJob) : DateTimeᵒᵈ ×ₗ Bool :=
  toLex (OrderDual.toDual (ConsoleJob.createdAt job), job.isRight)

theorem ConsoleJob.createdAt_le_of_rank_le {a b : ConsoleJob} (h : ConsoleJob.rank a ≤ ConsoleJob.rank b) :
    ConsoleJob.createdAt b ≤ ConsoleJob.createdAt a :=
  (Prod.Lex.le_iff.1 h).elim (fun h ↦ h.le) fun h ↦ (congrArg OrderDual.ofDual h.1).ge

section Listing

variable (S : Settings) (isoformat : DateTime → Text) (now : DateTime) (store : JobStore) (f : JobFilters)

def serializeJob : ConsoleJob → JobItem
  | .inl job => serializeApplication S isoformat now job
  | .inr job => serializeRag S isoformat now job

/-- The rows that are asked for. -/
def JobStore.applicationAsked : List ApplicationJob := store.applicationJobs.filter (applicationClauses f)

@[inherit_doc JobStore.applicationAsked]
def JobStore.ragAsked : List RagIngestionJob := store.ragIngestionJobs.filter (ragClauses f)

/-- The filters let an item through. -/
def JobFilters.passes (item : JobItem) : Bool :=
  (given f.status).all (fun status ↦
      if status = "failed" then ["failed", "dead_letter"].contains item.state || item.rawStatus = "dead_letter"
      else item.state = status) &&
    (given f.jobType).all (item.jobType = ·) && (given f.queue).all (item.queue = ·) &&
      (!f.failedOnly || (["failed", "stale"].contains item.state || item.rawStatus = "dead_letter"))

/-- The rows that the filters let through. -/
def passing (applicationRows : List ApplicationJob) (ragRows : List RagIngestionJob) : List ConsoleJob :=
  (applicationRows.map Sum.inl ++ ragRows.map Sum.inr).filter fun job ↦ f.passes (serializeJob S isoformat now job)

/-- The jobs that match the filters. -/
def JobStore.matching : List ConsoleJob :=
  passing S isoformat now f (store.applicationAsked f) (store.ragAsked f)

/-- The texts of the creation times are in the order of the times. -/
def InIsoOrder : Prop :=
  ∀ a ∈ store.matching S isoformat now f, ∀ b ∈ store.matching S isoformat now f,
    (isoformat (ConsoleJob.createdAt a) ≤ isoformat (ConsoleJob.createdAt b) ↔
      ConsoleJob.createdAt a ≤ ConsoleJob.createdAt b)

/-- The items of the first `N` pages, each read with answers of its own. -/
def listedPages (limit N : ℕ) (applicationRows : ℕ → List ApplicationJob) (ragRows : ℕ → List RagIngestionJob) :
    List JobItem :=
  (List.range N).flatMap fun k ↦
    (listJobs S isoformat f limit (k * limit) now (applicationRows k) (ragRows k)).1

/-- **Every job is listed**: whatever order the tables answer in, the total is the number of the matching jobs on
every page, and the pages that cover it have each of them once, the newest first. -/
def ListsEveryJob (limit : ℕ) : Prop :=
  ∀ (applicationRows : ℕ → List ApplicationJob) (ragRows : ℕ → List RagIngestionJob),
    (∀ k, IsAnswer ApplicationJob.createdAt (store.applicationAsked f) (applicationRows k)) →
    (∀ k, IsAnswer RagIngestionJob.createdAt (store.ragAsked f) (ragRows k)) →
      (∀ k, (listJobs S isoformat f limit (k * limit) now (applicationRows k) (ragRows k)).2 =
        (store.matching S isoformat now f).length) ∧
      ∀ N, (store.matching S isoformat now f).length ≤ N * limit →
        (listedPages S isoformat now f limit N applicationRows ragRows).Perm
            ((store.matching S isoformat now f).map (serializeJob S isoformat now)) ∧
          (listedPages S isoformat now f limit N applicationRows ragRows).Pairwise
            fun a b ↦ b.createdAt ≤ a.createdAt

/-- Of the rows of a table that are asked for, no more than 500 are as new as a matching one. -/
structure WithinCut : Prop where
  application : ∀ job ∈ store.applicationAsked f, f.passes (serializeApplication S isoformat now job) = true →
    upTo (fun row ↦ OrderDual.toDual row.createdAt) (store.applicationAsked f) job ≤ 500
  rag : ∀ job ∈ store.ragAsked f, f.passes (serializeRag S isoformat now job) = true →
    upTo (fun row ↦ OrderDual.toDual row.createdAt) (store.ragAsked f) job ≤ 500

end Listing

/-! ### From items to jobs -/

section Items

variable {S : Settings} {isoformat : DateTime → Text} {now : DateTime} {store : JobStore} {f : JobFilters}

/-- The filters one after the other are one. -/
theorem applyFilters_eq (items : List JobItem) : applyFilters f items = items.filter f.passes := by
  obtain ⟨status, jobType, queue, failedOnly, -, -⟩ := f
  have hcases : given status = none ∨ given status = some "failed" ∨
      ∃ x, ¬x = "failed" ∧ given status = some x := by
    rcases given status with - | x
    · exact .inl rfl
    · by_cases hx : x = "failed"
      · exact .inr (.inl (congrArg some hx))
      · exact .inr (.inr ⟨x, hx, rfl⟩)
  unfold applyFilters JobFilters.passes
  dsimp only
  rcases hcases with hs | hs | ⟨x, hx, hs⟩ <;> rcases given jobType with - | jobType <;>
    rcases given queue with - | queue <;> cases failedOnly
  all_goals simp [List.filter_filter, Bool.and_comm, Bool.and_left_comm, *]

/-- The rows that are passed on are those of the workers before the others. -/
theorem passing_eq (applicationRows : List ApplicationJob) (ragRows : List RagIngestionJob) :
    passing S isoformat now f applicationRows ragRows =
      (applicationRows.filter fun job ↦ f.passes (serializeApplication S isoformat now job)).map Sum.inl ++
        (ragRows.filter fun job ↦ f.passes (serializeRag S isoformat now job)).map Sum.inr := by
  rw [passing, List.filter_append, List.filter_map, List.filter_map]
  rfl

/-- The sort by time is stable, so that it is the sort by the rank. -/
theorem sortedBy_rank (left : List ApplicationJob) (right : List RagIngestionJob) :
    sortedBy (fun job : ConsoleJob ↦ OrderDual.toDual (ConsoleJob.createdAt job))
        (left.map Sum.inl ++ right.map Sum.inr) =
      sortedBy ConsoleJob.rank (left.map Sum.inl ++ right.map Sum.inr) := by
  refine eq_of_fibres pairwise_sortedBy
    (pairwise_sortedBy.imp fun {a b} h ↦ ConsoleJob.createdAt_le_of_rank_le (a := a) (b := b) h) fun k ↦ ?_
  rw [fibre_sortedBy, filter_sortedBy]
  refine eq_of_fibres ?_ pairwise_sortedBy fun r ↦ (fibre_sortedBy r).symm
  -- of one time, the jobs of the workers stand first
  have hsources : (left.map Sum.inl ++ right.map Sum.inr : List ConsoleJob).Pairwise
      fun a b ↦ a.isRight ≤ b.isRight := by
    refine List.pairwise_append.2 ⟨List.pairwise_map.2 ?_, List.pairwise_map.2 ?_, fun a ha b hb ↦ ?_⟩
    · exact List.pairwise_of_forall fun _ _ ↦ le_rfl
    · exact List.pairwise_of_forall fun _ _ ↦ le_rfl
    · obtain ⟨x, -, rfl⟩ := List.mem_map.1 ha
      exact Bool.false_le _
  refine (hsources.filter _).imp_of_mem fun {a b} ha hb hab ↦ ?_
  have hsame : OrderDual.toDual (ConsoleJob.createdAt a) = OrderDual.toDual (ConsoleJob.createdAt b) :=
    (of_decide_eq_true (List.mem_filter.1 ha).2).trans (of_decide_eq_true (List.mem_filter.1 hb).2).symm
  exact Prod.Lex.le_iff.2 (.inr ⟨hsame, hab⟩)

/-- **The listing is that of jobs**, sorted by their ranks. -/
theorem listJobs_eq {applicationRows : List ApplicationJob} {ragRows : List RagIngestionJob}
    (hiso : ∀ a ∈ passing S isoformat now f applicationRows ragRows,
      ∀ b ∈ passing S isoformat now f applicationRows ragRows,
        (isoformat (ConsoleJob.createdAt a) ≤ isoformat (ConsoleJob.createdAt b) ↔
          ConsoleJob.createdAt a ≤ ConsoleJob.createdAt b)) (limit offset : ℕ) :
    listJobs S isoformat f limit offset now applicationRows ragRows =
      ((((sortedBy ConsoleJob.rank (passing S isoformat now f applicationRows ragRows)).drop offset).take limit).map
        (serializeJob S isoformat now), (passing S isoformat now f applicationRows ragRows).length) := by
  have hitems : applyFilters f (applicationRows.map (serializeApplication S isoformat now) ++
      ragRows.map (serializeRag S isoformat now)) =
        (passing S isoformat now f applicationRows ragRows).map (serializeJob S isoformat now) := by
    rw [applyFilters_eq, passing_eq, List.filter_append, List.filter_map, List.filter_map, List.map_append,
      List.map_map, List.map_map]
    rfl
  have hsort : sortedBy (fun item : JobItem ↦ OrderDual.toDual item.createdAt)
      ((passing S isoformat now f applicationRows ragRows).map (serializeJob S isoformat now)) =
        (sortedBy ConsoleJob.rank (passing S isoformat now f applicationRows ragRows)).map
          (serializeJob S isoformat now) := by
    rw [passing_eq, ← sortedBy_rank, ← passing_eq]
    refine (map_sortedBy fun a ha b hb ↦ ?_).symm
    show ConsoleJob.createdAt b ≤ ConsoleJob.createdAt a ↔ _
    rw [← hiso b hb a ha]
    cases a with
    | _ =>
      cases b with
      | _ => rfl
  rw [listJobs, hitems, hsort, List.length_map, ← List.map_drop, ← List.map_take,
    (ordering_sortedBy ConsoleJob.rank _).perm.length_eq]

end Items

/-! ### The cut -/

section Cut

variable {ρ : Type} {createdAt : ρ → DateTime} {rows S : List ρ} {p : ρ → Bool}

/-- Where all that is passed on is as new as the cut allows, the cut does not matter. -/
theorem filter_take_of_upTo (hnodup : rows.Nodup)
    (hS : Ordering (fun row ↦ OrderDual.toDual (createdAt row)) rows S)
    (h : ∀ row ∈ rows, p row = true → upTo (fun row ↦ OrderDual.toDual (createdAt row)) rows row ≤ 500) :
    (S.take 500).filter p = S.filter p := by
  have hrest : (S.drop 500).filter p = [] := List.filter_eq_nil_iff.2 fun row hrow hp ↦ by
    have hmem : row ∈ rows := hS.perm.mem_iff.1 (List.mem_of_mem_drop hrow)
    have hnodup : (S.take 500 ++ S.drop 500).Nodup := by
      rwa [List.take_append_drop, hS.perm.nodup_iff]
    exact List.disjoint_of_nodup_append hnodup (mem_take hS hmem (h row hmem hp)) hrow
  conv_rhs => rw [← List.take_append_drop 500 S, List.filter_append, hrest, List.append_nil]

/-- A table may answer with the rows that are passed on in any of their orders. -/
theorem exists_answer (hnodup : rows.Nodup)
    (h : ∀ row ∈ rows, p row = true → upTo (fun row ↦ OrderDual.toDual (createdAt row)) rows row ≤ 500)
    (hS : Ordering (fun row ↦ OrderDual.toDual (createdAt row)) (rows.filter p) S) :
    ∃ answer, IsAnswer createdAt rows answer ∧ answer.filter p = S := by
  set all := sortedBy (fun row ↦ OrderDual.toDual (createdAt row)) (S ++ rows.filter fun row ↦ !p row) with hall
  have hordering : Ordering (fun row ↦ OrderDual.toDual (createdAt row)) rows all :=
    ⟨(List.perm_insertionSort _ _).trans ((hS.perm.append_right _).trans (List.filter_append_perm p rows)),
      pairwise_sortedBy⟩
  refine ⟨all.take 500, ⟨all, hordering, rfl⟩, ?_⟩
  have hpassed : S.filter p = S := List.filter_eq_self.2 fun row hrow ↦
    (List.mem_filter.1 (hS.perm.mem_iff.1 hrow)).2
  have hothers : (rows.filter fun row ↦ !p row).filter p = [] := by
    simp [List.filter_filter]
  rw [filter_take_of_upTo hnodup hordering h, hall, filter_sortedBy, List.filter_append, hpassed, hothers,
    List.append_nil]
  exact eq_of_fibres pairwise_sortedBy hS.sorted fun _ ↦ fibre_sortedBy _

end Cut

/-! ### Complete listings -/

section Complete

variable {S : Settings} {isoformat : DateTime → Text} {now : DateTime} {store : JobStore} {f : JobFilters} {L : ℕ}

theorem nodup_applicationAsked : (store.applicationAsked f).Nodup := store.applicationIds.of_map.filter _

theorem nodup_ragAsked : (store.ragAsked f).Nodup := store.ragIds.of_map.filter _

theorem mem_applicationAsked {answer : List ApplicationJob}
    (h : IsAnswer ApplicationJob.createdAt (store.applicationAsked f) answer) : answer ⊆ store.applicationAsked f := by
  obtain ⟨T, hT, rfl⟩ := h
  exact fun job hjob ↦ hT.perm.subset (List.mem_of_mem_take hjob)

theorem mem_ragAsked {answer : List RagIngestionJob}
    (h : IsAnswer RagIngestionJob.createdAt (store.ragAsked f) answer) : answer ⊆ store.ragAsked f := by
  obtain ⟨T, hT, rfl⟩ := h
  exact fun job hjob ↦ hT.perm.subset (List.mem_of_mem_take hjob)

theorem passing_subset {applicationRows : List ApplicationJob} {ragRows : List RagIngestionJob}
    (hA : applicationRows ⊆ store.applicationAsked f) (hR : ragRows ⊆ store.ragAsked f) :
    passing S isoformat now f applicationRows ragRows ⊆ store.matching S isoformat now f :=
  List.filter_subset _ (List.append_subset.2 ⟨List.subset_append_of_subset_left _ (List.map_subset _ hA),
    List.subset_append_of_subset_right _ (List.map_subset _ hR)⟩)

theorem inl_mem_matching {job : ApplicationJob} : .inl job ∈ store.matching S isoformat now f ↔
    job ∈ store.applicationAsked f ∧ f.passes (serializeApplication S isoformat now job) = true := by
  rw [JobStore.matching, passing_eq]
  simp

theorem inr_mem_matching {job : RagIngestionJob} : .inr job ∈ store.matching S isoformat now f ↔
    job ∈ store.ragAsked f ∧ f.passes (serializeRag S isoformat now job) = true := by
  rw [JobStore.matching, passing_eq]
  simp

theorem serializeJob_injective : ∀ a ∈ store.matching S isoformat now f, ∀ b ∈ store.matching S isoformat now f,
    serializeJob S isoformat now a = serializeJob S isoformat now b → a = b := by
  intro a ha b hb heq
  have hid : (serializeJob S isoformat now a).id = (serializeJob S isoformat now b).id := by rw [heq]
  have hsource : (serializeJob S isoformat now a).source = (serializeJob S isoformat now b).source := by rw [heq]
  rcases a with a | a <;> rcases b with b | b
  · exact congrArg Sum.inl (List.inj_on_of_nodup_map store.applicationIds
      (List.mem_filter.1 (inl_mem_matching.1 ha).1).1 (List.mem_filter.1 (inl_mem_matching.1 hb).1).1 hid)
  · exact absurd (show "application" = "rag_ingestion" from hsource) (by decide)
  · exact absurd (show "rag_ingestion" = "application" from hsource) (by decide)
  · exact congrArg Sum.inr (List.inj_on_of_nodup_map store.ragIds
      (List.mem_filter.1 (inr_mem_matching.1 ha).1).1 (List.mem_filter.1 (inr_mem_matching.1 hb).1).1 hid)

theorem nodup_matching : (store.matching S isoformat now f).Nodup := by
  refine List.Nodup.filter _ (List.nodup_append.2 ⟨nodup_applicationAsked.map Sum.inl_injective,
    nodup_ragAsked.map Sum.inr_injective, ?_⟩)
  rintro a ha b hb rfl
  obtain ⟨x, -, rfl⟩ := List.mem_map.1 ha
  obtain ⟨y, -, hy⟩ := List.mem_map.1 hb
  exact nomatch hy

/-- The pages are pages of jobs. -/
theorem listedPages_eq (hiso : InIsoOrder S isoformat now store f) {N : ℕ} {applicationRows : ℕ → List ApplicationJob}
    {ragRows : ℕ → List RagIngestionJob}
    (hA : ∀ k, IsAnswer ApplicationJob.createdAt (store.applicationAsked f) (applicationRows k))
    (hR : ∀ k, IsAnswer RagIngestionJob.createdAt (store.ragAsked f) (ragRows k)) :
    (∀ k, (listJobs S isoformat f L (k * L) now (applicationRows k) (ragRows k)).2 =
        (passing S isoformat now f (applicationRows k) (ragRows k)).length) ∧
      listedPages S isoformat now f L N applicationRows ragRows =
        (pages L N fun k ↦ sortedBy ConsoleJob.rank (passing S isoformat now f (applicationRows k) (ragRows k))).map
          (serializeJob S isoformat now) := by
  have hpage : ∀ k, _ := fun k ↦ listJobs_eq (S := S) (f := f) (fun a ha b hb ↦
    hiso a (passing_subset (mem_applicationAsked (hA k)) (mem_ragAsked (hR k)) ha) b
      (passing_subset (mem_applicationAsked (hA k)) (mem_ragAsked (hR k)) hb)) L (k * L)
  refine ⟨fun k ↦ by rw [hpage k], ?_⟩
  rw [listedPages, pages, List.map_flatMap]
  exact List.flatMap_congr fun k _ ↦ by rw [hpage k]

/-- Within the cut, what is passed on of two answers are the matching jobs. -/
theorem passing_perm (hcut : WithinCut S isoformat now store f) {applicationRows : List ApplicationJob}
    {ragRows : List RagIngestionJob}
    (hA : IsAnswer ApplicationJob.createdAt (store.applicationAsked f) applicationRows)
    (hR : IsAnswer RagIngestionJob.createdAt (store.ragAsked f) ragRows) :
    (passing S isoformat now f applicationRows ragRows).Perm (store.matching S isoformat now f) := by
  obtain ⟨T, hT, rfl⟩ := hA
  obtain ⟨U, hU, rfl⟩ := hR
  rw [JobStore.matching, passing_eq, passing_eq, filter_take_of_upTo nodup_applicationAsked hT hcut.application,
    filter_take_of_upTo nodup_ragAsked hU hcut.rag]
  exact ((hT.perm.filter _).map _).append ((hU.perm.filter _).map _)

/-- **A listing that is complete.** -/
theorem listsEveryJob_of_withinCut (hL : 1 ≤ L) (hiso : InIsoOrder S isoformat now store f)
    (hcut : WithinCut S isoformat now store f)
    (hapart : Apart ConsoleJob.rank (store.matching S isoformat now f) L) :
    ListsEveryJob S isoformat now store f L := by
  intro applicationRows ragRows hA hR
  have hperm : ∀ k, _ := fun k ↦ passing_perm hcut (hA k) (hR k)
  have hordering : ∀ k, Ordering ConsoleJob.rank (store.matching S isoformat now f)
      (sortedBy ConsoleJob.rank (passing S isoformat now f (applicationRows k) (ragRows k))) := fun k ↦
    ⟨(List.perm_insertionSort _ _).trans (hperm k), pairwise_sortedBy⟩
  refine ⟨fun k ↦ ((listedPages_eq (N := 0) hiso hA hR).1 k).trans (hperm k).length_eq, fun N hN ↦ ?_⟩
  have hpages := hapart.pages_perm hL nodup_matching hN hordering
  rw [(listedPages_eq hiso hA hR).2]
  refine ⟨hpages.map _, List.pairwise_map.2 ((pages_sorted hordering).imp_of_mem fun {a b} ha hb hab ↦ ?_)⟩
  have htexts := (hiso b (hpages.mem_iff.1 hb) a (hpages.mem_iff.1 ha)).2 (ConsoleJob.createdAt_le_of_rank_le hab)
  rcases a with a | a <;> rcases b with b | b <;> exact htexts

theorem map_inl_getLeft {α β : Type} (T : List (α ⊕ β)) : (T.filterMap Sum.getLeft?).map Sum.inl = T.filter Sum.isLeft := by
  induction T with
  | nil => rfl
  | cons job T ih =>
    cases job with
    | inl job => exact congrArg (Sum.inl job :: ·) ih
    | inr job => exact ih

theorem map_inr_getRight {α β : Type} (T : List (α ⊕ β)) :
    (T.filterMap Sum.getRight?).map Sum.inr = T.filter Sum.isRight := by
  induction T with
  | nil => rfl
  | cons job T ih =>
    cases job with
    | inl job => exact ih
    | inr job => exact congrArg (Sum.inr job :: ·) ih

theorem isAnswer_sorted {ρ : Type} (createdAt : ρ → DateTime) (rows : List ρ) :
    IsAnswer createdAt rows ((sortedBy (fun row ↦ OrderDual.toDual (createdAt row)) rows).take 500) :=
  ⟨_, ordering_sortedBy _ rows, rfl⟩

/-- A job that is listed has been answered. -/
theorem mem_passing_of_listed (hL : 1 ≤ L) (hiso : InIsoOrder S isoformat now store f)
    (h : ListsEveryJob S isoformat now store f L) {applicationRows : List ApplicationJob}
    {ragRows : List RagIngestionJob}
    (hA : IsAnswer ApplicationJob.createdAt (store.applicationAsked f) applicationRows)
    (hR : IsAnswer RagIngestionJob.createdAt (store.ragAsked f) ragRows) {job : ConsoleJob}
    (hjob : job ∈ store.matching S isoformat now f) : job ∈ passing S isoformat now f applicationRows ragRows := by
  have hpages := ((h (fun _ ↦ applicationRows) (fun _ ↦ ragRows) (fun _ ↦ hA) fun _ ↦ hR).2 _
    (Nat.le_mul_of_pos_right _ hL)).1
  rw [(listedPages_eq hiso (fun _ ↦ hA) fun _ ↦ hR).2] at hpages
  obtain ⟨other, hother, heq⟩ := List.mem_map.1 (hpages.mem_iff.2 (List.mem_map_of_mem hjob))
  obtain ⟨k, -, hk⟩ := List.mem_flatMap.1 hother
  have hpassed := mem_sortedBy.1 (List.mem_of_mem_drop (List.mem_of_mem_take hk))
  rwa [← serializeJob_injective other (passing_subset (mem_applicationAsked hA) (mem_ragAsked hR) hpassed) job hjob heq]

/-- **And only such a listing is.** -/
theorem withinCut_of_listsEveryJob (hL : 1 ≤ L) (hiso : InIsoOrder S isoformat now store f)
    (h : ListsEveryJob S isoformat now store f L) : WithinCut S isoformat now store f where
  application job hjob hpasses := by
    by_contra hlt
    obtain ⟨T, hT, hout⟩ := exists_ordering_cut nodup_applicationAsked hjob (not_le.1 hlt)
    have hlisted := mem_passing_of_listed hL hiso h ⟨T, hT, rfl⟩ (isAnswer_sorted _ _)
      (inl_mem_matching.2 ⟨hjob, hpasses⟩)
    rw [passing_eq] at hlisted
    exact hout (by simpa [hpasses] using hlisted)
  rag job hjob hpasses := by
    by_contra hlt
    obtain ⟨T, hT, hout⟩ := exists_ordering_cut nodup_ragAsked hjob (not_le.1 hlt)
    have hlisted := mem_passing_of_listed hL hiso h (isAnswer_sorted _ _) ⟨T, hT, rfl⟩
      (inr_mem_matching.2 ⟨hjob, hpasses⟩)
    rw [passing_eq] at hlisted
    exact hout (by simpa [hpasses] using hlisted)

/-- The tables may answer so that the matching jobs come in any of their orders. -/
theorem exists_answers (hcut : WithinCut S isoformat now store f) {T : List ConsoleJob}
    (hT : Ordering ConsoleJob.rank (store.matching S isoformat now f) T) :
    ∃ applicationRows ragRows, IsAnswer ApplicationJob.createdAt (store.applicationAsked f) applicationRows ∧
      IsAnswer RagIngestionJob.createdAt (store.ragAsked f) ragRows ∧
        sortedBy ConsoleJob.rank (passing S isoformat now f applicationRows ragRows) = T := by
  have hperm := hT.perm
  rw [JobStore.matching, passing_eq] at hperm
  have hsorted := hT.sorted.imp ConsoleJob.createdAt_le_of_rank_le
  have hleft : Ordering (fun row ↦ OrderDual.toDual (ApplicationJob.createdAt row))
      ((store.applicationAsked f).filter fun job ↦ f.passes (serializeApplication S isoformat now job))
      (T.filterMap Sum.getLeft?) := by
    refine ⟨by simpa [Function.comp_def] using hperm.filterMap Sum.getLeft?, List.pairwise_filterMap.2 ?_⟩
    refine hsorted.imp fun {a b} hab x hx y hy ↦ ?_
    obtain rfl := Sum.getLeft?_eq_some_iff.1 hx
    obtain rfl := Sum.getLeft?_eq_some_iff.1 hy
    exact hab
  have hright : Ordering (fun row ↦ OrderDual.toDual (RagIngestionJob.createdAt row))
      ((store.ragAsked f).filter fun job ↦ f.passes (serializeRag S isoformat now job))
      (T.filterMap Sum.getRight?) := by
    refine ⟨by simpa [Function.comp_def] using hperm.filterMap Sum.getRight?, List.pairwise_filterMap.2 ?_⟩
    refine hsorted.imp fun {a b} hab x hx y hy ↦ ?_
    obtain rfl := Sum.getRight?_eq_some_iff.1 hx
    obtain rfl := Sum.getRight?_eq_some_iff.1 hy
    exact hab
  obtain ⟨applicationRows, hA, hpassedA⟩ := exists_answer nodup_applicationAsked hcut.application hleft
  obtain ⟨ragRows, hR, hpassedR⟩ := exists_answer nodup_ragAsked hcut.rag hright
  refine ⟨applicationRows, ragRows, hA, hR, ?_⟩
  rw [passing_eq, hpassedA, hpassedR]
  refine eq_of_fibres pairwise_sortedBy hT.sorted fun k ↦ ?_
  rw [fibre_sortedBy, List.filter_append, map_inl_getLeft, map_inr_getRight, List.filter_filter, List.filter_filter]
  -- one of the two parts has nothing of the rank
  have hsource : ∀ job : ConsoleJob, ConsoleJob.rank job = k → job.isRight = (ofLex k).2 := fun job hjob ↦
    congrArg (fun r ↦ (ofLex r).2) hjob
  cases hk : (ofLex k).2 with
  | false =>
    have hnone : (T.filter fun job ↦ ConsoleJob.rank job = k && job.isRight) = [] :=
      List.filter_eq_nil_iff.2 fun job _ h ↦ by
        rw [Bool.and_eq_true, decide_eq_true_eq] at h
        exact Bool.noConfusion (h.2.symm.trans ((hsource job h.1).trans hk))
    rw [hnone, List.append_nil]
    refine List.filter_congr fun job _ ↦ ?_
    rw [Bool.and_eq_left_iff_imp, decide_eq_true_eq]
    exact fun h ↦ Sum.isRight_eq_false.1 ((hsource job h).trans hk)
  | true =>
    have hnone : (T.filter fun job ↦ ConsoleJob.rank job = k && job.isLeft) = [] :=
      List.filter_eq_nil_iff.2 fun job _ h ↦ by
        rw [Bool.and_eq_true, decide_eq_true_eq] at h
        exact Bool.noConfusion ((Sum.isLeft_eq_false.2 ((hsource job h.1).trans hk)).symm.trans h.2)
    rw [hnone, List.nil_append]
    refine List.filter_congr fun job _ ↦ ?_
    rw [Bool.and_eq_left_iff_imp, decide_eq_true_eq]
    exact fun h ↦ (hsource job h).trans hk

/-- **No page ends among jobs of one time**, if every job is listed. -/
theorem apart_of_listsEveryJob (hL : 1 ≤ L) (hiso : InIsoOrder S isoformat now store f)
    (h : ListsEveryJob S isoformat now store f L) :
    Apart ConsoleJob.rank (store.matching S isoformat now f) L := by
  have hcut := withinCut_of_listsEveryJob hL hiso h
  have hN := Nat.le_mul_of_pos_right (store.matching S isoformat now f).length hL
  refine apart_of_pages hL hN fun orders horders ↦ ?_
  choose applicationRows ragRows hA hR heq using fun k ↦ exists_answers hcut (horders k)
  have hpages := ((h applicationRows ragRows hA hR).2 _ hN).1
  rw [(listedPages_eq hiso hA hR).2, funext heq] at hpages
  exact (hpages.nodup_iff.2 (nodup_matching.map_on fun a ha b hb ↦ serializeJob_injective a ha b hb)).of_map

/-- **Every job is listed** if and only if the cut has the matching jobs, and no page ends among those of one table and
one time. -/
theorem listsEveryJob_iff (hL : 1 ≤ L) (hiso : InIsoOrder S isoformat now store f) :
    ListsEveryJob S isoformat now store f L ↔
      WithinCut S isoformat now store f ∧ Apart ConsoleJob.rank (store.matching S isoformat now f) L :=
  ⟨fun h ↦ ⟨withinCut_of_listsEveryJob hL hiso h, apart_of_listsEveryJob hL hiso h⟩,
    fun h ↦ listsEveryJob_of_withinCut hL hiso h.1 h.2⟩

end Complete

/-! ### A failed job behind 500 others -/

/-- Two instants as they are written. -/
def twoInstants (value : DateTime) : Text :=
  if value = 1 then "1970-01-01T00:00:00.000001+00:00".toList else "1970-01-01T00:00:00.000002+00:00".toList

def emailJob (id : Uuid) (status : JobStatus) (createdAt : DateTime) : ApplicationJob :=
  { queuedNew id
      { jobType := "email", correlationId := "", operationId := none, payload := [], maxAttempts := 3,
        retryable := true, deadlineAt := none } createdAt createdAt with
    status := status }

/-- A failed job, and `n` that succeeded after it. -/
def crowd (n : ℕ) : List ApplicationJob :=
  emailJob 0 .failed 1 :: (List.range n).map fun i ↦ emailJob (i + 1) .succeeded 2

theorem crowd_ids (n : ℕ) : ((crowd n).map ApplicationJob.id).Nodup := by
  rw [crowd, List.map_cons, List.map_map]
  refine List.nodup_cons.2 ⟨?_, List.nodup_range.map fun i j h ↦ Nat.succ_injective h⟩
  exact fun h ↦ (List.mem_map.1 h).elim fun i hi ↦ Nat.succ_ne_zero i hi.2

theorem mem_crowd {n : ℕ} {job : ApplicationJob} (h : job ∈ crowd n) :
    job = emailJob 0 .failed 1 ∨ ∃ i, job = emailJob (i + 1) .succeeded 2 :=
  (List.mem_cons.1 h).imp_right fun h ↦ (List.mem_map.1 h).imp fun _ hi ↦ hi.2.symm

def crowdedStore (n : ℕ) : JobStore where
  applicationJobs := crowd n
  ragIngestionJobs := []
  applicationIds := crowd_ids n
  ragIds := List.nodup_nil

def failedJobs : JobFilters where
  status := some "failed"

theorem crowded_matching (n : ℕ) {job : ConsoleJob}
    (h : job ∈ (crowdedStore n).matching .default twoInstants 3 failedJobs) :
    job = .inl (emailJob 0 .failed 1) := by
  rcases job with job | job
  · obtain ⟨hasked, hpasses⟩ := inl_mem_matching.1 h
    rcases mem_crowd (List.mem_filter.1 hasked).1 with rfl | ⟨i, rfl⟩
    · rfl
    · exact nomatch hpasses
  · exact nomatch (List.mem_filter.1 (inr_mem_matching.1 h).1).1

theorem crowded_isoOrder (n : ℕ) : InIsoOrder .default twoInstants 3 (crowdedStore n) failedJobs := by
  intro a ha b hb
  rw [crowded_matching n ha, crowded_matching n hb]
  exact iff_of_true le_rfl le_rfl

/-- **The failed job is not listed**, and the total is none. -/
theorem crowded_lists_not : InIsoOrder .default twoInstants 3 (crowdedStore 500) failedJobs ∧
    ¬ListsEveryJob .default twoInstants 3 (crowdedStore 500) failedJobs 50 := by
  refine ⟨crowded_isoOrder 500, fun h ↦ ?_⟩
  have hcut := (withinCut_of_listsEveryJob (by decide) (crowded_isoOrder 500) h).application
    (emailJob 0 .failed 1) (List.mem_filter.2 ⟨List.mem_cons_self, rfl⟩) rfl
  have hasked : (crowdedStore 500).applicationAsked failedJobs = crowd 500 := List.filter_eq_self.2 fun _ _ ↦ rfl
  have hall : upTo (fun row ↦ OrderDual.toDual (ApplicationJob.createdAt row)) (crowd 500) (emailJob 0 .failed 1) =
      (crowd 500).length := List.countP_eq_length.2 fun job hjob ↦ by
    rcases mem_crowd hjob with rfl | ⟨i, rfl⟩
    · rfl
    · rfl
  rw [hasked, hall, crowd, List.length_cons, List.length_map, List.length_range] at hcut
  exact absurd hcut (by decide)

theorem listsEveryJob_iff_two : ListsEveryJob .default twoInstants 3 (crowdedStore 1) failedJobs 50 := by
  refine (listsEveryJob_iff (by decide) (crowded_isoOrder 1)).2 ⟨⟨?_, ?_⟩, apart_of_length_le (by decide)⟩
  · decide
  · decide

end GenericApp
