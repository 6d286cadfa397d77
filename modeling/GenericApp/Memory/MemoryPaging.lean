import GenericApp.Memory.MemoryIsolation

/-!
# Paging through the memories of a user

`list_user_memories` fetches as many memories as the page and all before it need, never more than
`MAX_PAGE_LIMIT`, consolidates what it has fetched, and cuts the page out of that. The total that it reports
is the length of what it has consolidated.

So no page past the first one has anything on it, unless its total is a different one: the first page holds
the whole of what the first `limit` memories consolidate to, and `pagingComplete_iff` says when that is all
there is.
-/

namespace GenericApp

open Py

/-! ### Listing -/

/-- `MAX_PAGE_LIMIT` -/
def maxPageLimit : ℕ := 200

/-- What `list_user_memories` raises. -/
inductive ListError
  /-- 403 `Project access denied` -/
  | projectDenied
  /-- A text that is no level. -/
  | valueError
  /-- What Python raises for metadata that cannot be read. -/
  | unreadable (error : PyError)
deriving DecidableEq

/-- The arguments of `list_user_memories` but for the place of the page. -/
structure Listing where
  userId : String
  memoryLevel : Option String
  projectId : Option String

section List

variable (world : MemoryWorld) (config : MemoryConfig)
  (filterAccessible : String → List MetaValue → List MetaValue)

/-- `[MemoryLevel(memory_level)] if memory_level else [MemoryLevel.USER]` -/
def Listing.level (listing : Listing) : Except ListError MemoryLevel :=
  match given listing.memoryLevel with
  | some text => (MemoryLevel.ofValue text).elim (.error .valueError) .ok
  | none => .ok .user

/-- `list_user_memories`: the page and the total. `getAll` is `mem0.get_all`, by the level and `top_k`. -/
def listUserMemories (now : DateTime) (getAll : MemoryLevel → ℕ → List MemoryItem) (listing : Listing)
    (limit : Option ℕ) (offset : ℕ) : Except ListError (List MemoryItem × ℕ) :=
  if config.enabled = false then .ok ([], 0)
  else if (given listing.projectId).any fun project ↦ !world.projectAccess project listing.userId then
    .error .projectDenied
  else
    let resolvedLimit := if limit.getD 0 = 0 then config.defaultLimit else limit.getD 0
    let fetchCap := min (offset + resolvedLimit) maxPageLimit
    listing.level.bind fun level ↦
    match filterAuthorizedReadItems filterAccessible listing.userId (getAll level fetchCap) with
    | .error error => .error (.unreadable error)
    | .ok items =>
      let consolidated := consolidate world.conv now items
      .ok ((consolidated.drop offset).take resolvedLimit, consolidated.length)

end List

/-! ### Paging -/

/-- The pages that come of asking for one after the other, from the one numbered `k` to the first that is
empty. -/
inductive Pages (request : ℕ → Except ListError (List MemoryItem × ℕ)) : ℕ → List (List MemoryItem × ℕ) → Prop
  | last {k total : ℕ} (hrequest : request k = .ok ([], total)) : Pages request k [([], total)]
  | more {k : ℕ} {items : List MemoryItem} {total : ℕ} {rest : List (List MemoryItem × ℕ)}
      (hrequest : request k = .ok (items, total)) (hitems : items ≠ []) (hrest : Pages request (k + 1) rest) :
      Pages request k ((items, total) :: rest)

/-- The first of the pages, which is the last one when it is empty. -/
theorem Pages.cases_head {request : ℕ → Except ListError (List MemoryItem × ℕ)} {k : ℕ}
    {pages : List (List MemoryItem × ℕ)} (h : Pages request k pages) :
    ∃ items total rest, pages = (items, total) :: rest ∧ request k = .ok (items, total) ∧
      (items = [] → rest = []) := by
  cases h with
  | last hrequest => exact ⟨_, _, _, rfl, hrequest, fun _ ↦ rfl⟩
  | more hrequest hitems hrest => exact ⟨_, _, _, rfl, hrequest, fun hnil ↦ absurd hnil hitems⟩

/-- The ids of memories, by which they are the same ones. -/
def memoryIds (items : List MemoryItem) : List String := items.map MemoryItem.id

/-- **Paging is complete**: up to the first empty page every memory of the full list comes once, and every page
has the length of the full list for its total. -/
def PagingComplete (request : ℕ → Except ListError (List MemoryItem × ℕ)) (full : List MemoryItem) : Prop :=
  ∃ pages, Pages request 0 pages ∧ (memoryIds (pages.flatMap Prod.fst)).Perm (memoryIds full) ∧
    ∀ page ∈ pages, page.2 = full.length

/-- A user, who lists memories of one level. All of them are the user's to read, and so is the project. -/
structure Reader where
  world : MemoryWorld
  config : MemoryConfig
  filterAccessible : String → List MetaValue → List MetaValue
  listing : Listing
  level : MemoryLevel
  memories : List MemoryItem
  enabled : config.enabled = true
  entered : ∀ project, given listing.projectId = some project →
    world.projectAccess project listing.userId = true
  level_eq : listing.level = .ok level
  readable : ∀ n, filterAuthorizedReadItems filterAccessible listing.userId (memories.take n) =
    .ok (memories.take n)

namespace Reader

variable (reader : Reader) (clock : ℕ → DateTime) (now : DateTime) (pageSize : ℕ)

/-- `mem0.get_all` returns the first memories of the list. -/
def getAll (_ : MemoryLevel) (topK : ℕ) : List MemoryItem := reader.memories.take topK

/-- The page numbered `k`, asked for at the instant that the clock says. -/
def page (k : ℕ) : Except ListError (List MemoryItem × ℕ) :=
  listUserMemories reader.world reader.config reader.filterAccessible (clock k) reader.getAll reader.listing
    (some pageSize) (k * pageSize)

/-- What the memories fetched for the page numbered `k` consolidate to. -/
def consolidated (k : ℕ) : List MemoryItem :=
  consolidate reader.world.conv (clock k) (reader.memories.take (min (k * pageSize + pageSize) maxPageLimit))

/-- What all memories consolidate to. -/
def full : List MemoryItem := consolidate reader.world.conv now reader.memories

/-- The memories that are fetched for the first page consolidate to what all of them do, and those fetched for
the second one to as many. -/
structure PrefixSuffices : Prop where
  first : (memoryIds (reader.consolidated clock pageSize 0)).Perm (memoryIds (reader.full now))
  second : (reader.consolidated clock pageSize 1).length = (reader.full now).length

variable {reader clock now pageSize}

/-- **What a page is.** -/
theorem page_eq (hsize : 1 ≤ pageSize) (k : ℕ) :
    reader.page clock pageSize k =
      .ok (((reader.consolidated clock pageSize k).drop (k * pageSize)).take pageSize,
        (reader.consolidated clock pageSize k).length) := by
  have hentered : ¬(given reader.listing.projectId).any (fun project ↦
      !reader.world.projectAccess project reader.listing.userId) = true := by
    intro hany
    obtain ⟨project, hgiven, hdenied⟩ := (Option.any_eq_true _ _).1 hany
    rw [reader.entered project hgiven] at hdenied
    exact nomatch hdenied
  have hlimit : ¬pageSize = 0 := by omega
  rw [page, listUserMemories, if_neg (by rw [reader.enabled]; decide), if_neg hentered]
  simp only [Option.getD_some, if_neg hlimit, reader.level_eq, getAll, Except.bind, reader.readable]
  rfl

theorem length_consolidated_zero : (reader.consolidated clock pageSize 0).length ≤ pageSize := by
  refine (length_consolidate_le _ _).trans ?_
  rw [List.length_take]
  omega

/-- The first page holds all that was fetched for it. -/
theorem page_zero (hsize : 1 ≤ pageSize) :
    reader.page clock pageSize 0 =
      .ok (reader.consolidated clock pageSize 0, (reader.consolidated clock pageSize 0).length) := by
  rw [page_eq hsize, Nat.zero_mul, List.drop_zero, List.take_of_length_le length_consolidated_zero]

/-- The second page is empty, where its total is no greater than the size of a page. -/
theorem page_one (hsize : 1 ≤ pageSize) (hlength : (reader.consolidated clock pageSize 1).length ≤ pageSize) :
    reader.page clock pageSize 1 = .ok ([], (reader.consolidated clock pageSize 1).length) := by
  rw [page_eq hsize, Nat.one_mul, List.drop_of_length_le hlength, List.take_nil]

/-- Nothing is fetched for the first page only where there is nothing. -/
theorem memories_eq_nil (hsize : 1 ≤ pageSize) (h : reader.consolidated clock pageSize 0 = []) :
    reader.memories = [] := by
  have hfetched := consolidate_eq_nil_iff.1 h
  rw [List.take_eq_nil_iff, Nat.zero_mul, Nat.zero_add] at hfetched
  refine hfetched.resolve_left fun hcap ↦ ?_
  have hmax : maxPageLimit = 200 := rfl
  omega

/-- The pages that there are when the memories fetched for the first page suffice. -/
theorem complete_of_prefixSuffices (hsize : 1 ≤ pageSize) (h : reader.PrefixSuffices clock now pageSize) :
    PagingComplete (reader.page clock pageSize) (reader.full now) := by
  have hlength : (reader.consolidated clock pageSize 0).length = (reader.full now).length := by
    simpa [memoryIds] using h.first.length_eq
  by_cases hnil : reader.consolidated clock pageSize 0 = []
  · have hpage := @page_zero reader clock pageSize hsize
    rw [hnil] at hpage hlength
    refine ⟨[([], 0)], .last hpage, ?_, ?_⟩
    · have hfirst := h.first
      rw [hnil] at hfirst
      exact hfirst
    · simpa using hlength
  · have hsecond : (reader.consolidated clock pageSize 1).length ≤ pageSize := by
      rw [h.second, ← hlength]
      exact length_consolidated_zero
    refine ⟨_, .more (page_zero hsize) hnil (.last (page_one hsize hsecond)), ?_, ?_⟩
    · simpa using h.first
    · simp [hlength, h.second]

/-- What complete paging says of the memories that were fetched. -/
theorem prefixSuffices_of_complete (hsize : 1 ≤ pageSize)
    (h : PagingComplete (reader.page clock pageSize) (reader.full now)) :
    reader.PrefixSuffices clock now pageSize := by
  obtain ⟨pages, hpages, hperm, htotal⟩ := h
  cases hpages with
  | last hrequest =>
    obtain ⟨hnil, -⟩ := Prod.mk.inj (Except.ok.inj ((page_zero hsize).symm.trans hrequest))
    have hmemories := memories_eq_nil hsize hnil
    have hempty (instant : DateTime) (n : ℕ) :
        consolidate reader.world.conv instant (reader.memories.take n) = [] := by
      rw [hmemories, List.take_nil]
      rfl
    have hfull : reader.full now = [] := by
      rw [full, hmemories]
      rfl
    refine ⟨?_, ?_⟩
    · rw [hnil, hfull]
    · rw [hfull, consolidated, hempty]
  | more hrequest hitems hrest =>
    obtain ⟨rfl, rfl⟩ := Prod.mk.inj (Except.ok.inj ((page_zero hsize).symm.trans hrequest))
    have hfirst : (reader.consolidated clock pageSize 0).length = (reader.full now).length :=
      htotal _ List.mem_cons_self
    obtain ⟨items, total, last, rfl, hrequest', hlast⟩ := hrest.cases_head
    have htotal' : total = (reader.full now).length := htotal (items, total) (by simp)
    obtain ⟨-, hsecond⟩ := Prod.mk.inj (Except.ok.inj ((page_eq hsize 1).symm.trans hrequest'))
    rw [htotal'] at hsecond
    refine ⟨?_, hsecond⟩
    -- The total of the second page leaves nothing to be on it.
    have hlength : (reader.consolidated clock pageSize 1).length ≤ pageSize := by
      rw [hsecond, ← hfirst]
      exact length_consolidated_zero
    obtain ⟨rfl, -⟩ := Prod.mk.inj (Except.ok.inj ((page_one hsize hlength).symm.trans hrequest'))
    rw [hlast rfl] at hperm
    simpa using hperm

/-- It is complete at one instant when all memories fit on a page. -/
theorem prefixSuffices_of_length_le (hsize : reader.memories.length ≤ pageSize)
    (hmax : reader.memories.length ≤ maxPageLimit) : reader.PrefixSuffices (fun _ ↦ now) now pageSize := by
  have hall (k : ℕ) : reader.consolidated (fun _ ↦ now) pageSize k = reader.full now := by
    rw [consolidated, full, List.take_of_length_le]
    exact le_min (hsize.trans (Nat.le_add_left _ _)) hmax
  exact ⟨by rw [hall], by rw [hall]⟩

/-- Two facts of the user `u1`. -/
def officeMemory : MemoryItem where
  id := "m1"
  content := "the office is in Lyon"
  metadata := MemoryMetadata.factMetadata

def teamMemory : MemoryItem where
  id := "m2"
  content := "the team meets on Mondays"
  metadata := MemoryMetadata.factMetadata

/-- The first of January 2026, when they were told. -/
def memoryInstant : DateTime := 1767225600000000

/-- The user, who lists them. -/
def twoFacts : Reader where
  world := ⟨MemoryMetadata.plainConversions, fun _ ↦ false, fun _ _ ↦ true⟩
  config := defaultMemoryConfig
  filterAccessible := fun _ ids ↦ ids
  listing := ⟨"u1", none, none⟩
  level := .user
  memories := [officeMemory, teamMemory]
  enabled := rfl
  entered := fun _ _ ↦ rfl
  level_eq := rfl
  readable n := by
    match n with
    | 0 => rfl
    | 1 => rfl
    | _ + 2 =>
      simp only [List.take_succ_cons, List.take_nil]
      rfl

end Reader

end GenericApp
