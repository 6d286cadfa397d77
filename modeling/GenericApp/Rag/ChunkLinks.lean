import GenericApp.Foundation.Outcomes
import GenericApp.Rag.ChunkingService

/-!
# The links between the chunks

`ChunkingService.chunk` numbers the chunks of a document and links them in two passes, the parents in one and the
children in the other. A pass leaves a row of consecutive chunks, each linked to the number before its own and the
one after (`RowLinks`). The first of the second pass is the first child. The number before its own is not 0, it is
that of the last parent, and so its link leads out of the row: `consistent_iff`.
-/

namespace Py.Dict

/-! ### Merged dictionaries -/

/-- The key is there, with one value only. -/
def Says (d : Dict) (key : String) (value : Value) : Prop :=
  (∃ e ∈ d, e.1 = key) ∧ ∀ e ∈ d, e.1 = key → e.2 = value

variable {d e : Dict} {key other : String} {value : Value}

theorem Says.get_eq (h : Says d key value) : get d key = value := by
  obtain ⟨hmem, hvalue⟩ := h
  rw [get, getD]
  induction d with
  | nil => exact absurd hmem (by simp)
  | cons entry d ih =>
    obtain ⟨k, v⟩ := entry
    by_cases hk : k = key
    · subst hk
      rw [List.lookup_cons, beq_self_eq_true]
      exact hvalue _ List.mem_cons_self rfl
    · have hne : (key == k) = false := beq_eq_false_iff_ne.2 (Ne.symm hk)
      rw [List.lookup_cons, hne]
      refine ih ?_ fun entry hentry ↦ hvalue entry (List.mem_cons_of_mem _ hentry)
      obtain ⟨entry, hentry, hkey⟩ := hmem
      rcases List.mem_cons.1 hentry with rfl | hentry
      · exact absurd hkey hk
      · exact ⟨entry, hentry, hkey⟩

theorem lookup_isSome_iff (d : Dict) (key : String) : (d.lookup key).isSome ↔ ∃ e ∈ d, e.1 = key := by
  rw [List.lookup_isSome_iff]
  exact exists_congr fun entry ↦ and_congr_right fun _ ↦ beq_iff_eq.trans eq_comm

theorem says_put_self : Says (put d key value) key value := by
  rw [put]
  split
  · next hmem =>
    obtain ⟨entry, hentry, hkey⟩ := (lookup_isSome_iff d key).1 hmem
    refine ⟨⟨_, List.mem_map_of_mem hentry, by rw [if_pos hkey]⟩, ?_⟩
    intro changed hchanged hkey
    obtain ⟨entry, -, rfl⟩ := List.mem_map.1 hchanged
    by_cases hentry : entry.1 = key
    · rw [if_pos hentry]
    · rw [if_neg hentry] at hkey
      exact absurd hkey hentry
  · next hmem =>
    refine ⟨⟨_, List.mem_append_right _ List.mem_cons_self, rfl⟩, fun entry hentry hkey ↦ ?_⟩
    rcases List.mem_append.1 hentry with hentry | hentry
    · exact absurd ((lookup_isSome_iff d key).2 ⟨entry, hentry, hkey⟩) hmem
    · rw [List.mem_singleton.1 hentry]

theorem Says.put_of_ne (h : Says d key value) (hne : key ≠ other) (x : Value) : Says (put d other x) key value := by
  obtain ⟨⟨entry, hentry, hkey⟩, hvalue⟩ := h
  rw [put]
  split
  · refine ⟨⟨_, List.mem_map_of_mem hentry, ?_⟩, fun changed hchanged hchangedKey ↦ ?_⟩
    · rw [if_neg (hkey ▸ hne)]
      exact hkey
    · obtain ⟨entry, hentry, rfl⟩ := List.mem_map.1 hchanged
      by_cases hother : entry.1 = other
      · rw [if_pos hother] at hchangedKey
        exact absurd hchangedKey hne.symm
      · rw [if_neg hother] at hchangedKey ⊢
        exact hvalue entry hentry hchangedKey
  · refine ⟨⟨entry, List.mem_append_left _ hentry, hkey⟩, fun added hadded haddedKey ↦ ?_⟩
    rcases List.mem_append.1 hadded with hadded | hadded
    · exact hvalue added hadded haddedKey
    · rw [List.mem_singleton.1 hadded] at haddedKey
      exact absurd haddedKey hne.symm

/-- What says the key already, or is told so, says it in the end. -/
theorem says_update (hkey : Says d key value ∨ ∃ entry ∈ e, entry.1 = key)
    (hvalue : ∀ entry ∈ e, entry.1 = key → entry.2 = value) : Says (update d e) key value := by
  induction e generalizing d with
  | nil =>
    rcases hkey with hholds | ⟨entry, hentry, -⟩
    · exact hholds
    · exact absurd hentry List.not_mem_nil
  | cons entry e ih =>
    rw [update_cons]
    refine ih ?_ fun entry hentry ↦ hvalue entry (List.mem_cons_of_mem _ hentry)
    by_cases hentry : entry.1 = key
    · subst hentry
      rw [← hvalue entry List.mem_cons_self rfl]
      exact .inl says_put_self
    · rcases hkey with hholds | ⟨other, hother, hkey⟩
      · exact .inl (hholds.put_of_ne (Ne.symm hentry) _)
      · rcases List.mem_cons.1 hother with rfl | hother
        · exact absurd hkey hentry
        · exact .inr ⟨other, hother, hkey⟩

theorem Says.update (h : Says e key value) : Says (Dict.update d e) key value := says_update (.inr h.1) h.2

theorem Says.update_of_ne (h : Says d key value) (hne : ∀ entry ∈ e, entry.1 ≠ key) :
    Says (Dict.update d e) key value :=
  says_update (.inl h) fun entry hentry hkey ↦ absurd hkey (hne entry hentry)

end Py.Dict

namespace GenericApp

open Py

/-! ### Rows -/

/-- The role of the chunk. -/
def hasRole (role : String) (chunk : DocumentChunk) : Bool :=
  match Dict.get chunk.metadata "chunk_role" with
  | .str name => name = role
  | _ => false

/-- A link to the chunk. -/
def linkTo : Option DocumentChunk → Value
  | some chunk => .int chunk.chunkIndex
  | none => .none

/-- The chunk before a place of the row. -/
def chunkBefore (row : List DocumentChunk) : ℕ → Option DocumentChunk
  | 0 => none
  | i + 1 => row[i]?

/-- The row is a doubly linked list. -/
def Linked (row : List DocumentChunk) : Prop :=
  ∀ i chunk, row[i]? = some chunk →
    Dict.get chunk.metadata "prev_chunk_index" = linkTo (chunkBefore row i) ∧
      Dict.get chunk.metadata "next_chunk_index" = linkTo row[i + 1]?

/-- What a pass leaves: consecutive numbers from `base` on, each linked to the one before it and the one after. -/
structure RowLinks (base : ℕ) (row : List DocumentChunk) : Prop where
  numbered : row.map DocumentChunk.chunkIndex = List.range' base row.length
  prev : ∀ chunk ∈ row, Dict.get chunk.metadata "prev_chunk_index" = prevIndex chunk.chunkIndex
  next : ∀ chunk ∈ row, Dict.get chunk.metadata "next_chunk_index" =
    nextIndex chunk.chunkIndex (base + row.length)

namespace RowLinks

variable {base : ℕ} {row : List DocumentChunk}

theorem index_at (h : RowLinks base row) {i : ℕ} {chunk : DocumentChunk} (hi : row[i]? = some chunk) :
    chunk.chunkIndex = base + i := by
  have hindex := congrArg (·[i]?) h.numbered
  have hlength := (List.getElem?_eq_some_iff.1 hi).1
  rw [List.getElem?_map, hi, List.getElem?_range' hlength] at hindex
  simpa using hindex

/-- **A row is a list of its own if it begins with 0.** -/
theorem linked_iff (h : RowLinks base row) : Linked row ↔ base = 0 ∨ row = [] := by
  constructor
  · intro hlinked
    rcases hrow : row with - | ⟨first, rest⟩
    · exact .inr rfl
    · have hfirst : row[0]? = some first := by rw [hrow]; rfl
      have hmem : first ∈ row := List.mem_of_getElem? hfirst
      have hprev := (hlinked 0 first hfirst).1
      rw [h.prev first hmem, h.index_at hfirst, prevIndex] at hprev
      split at hprev
      · exact absurd hprev (by simp [chunkBefore, linkTo])
      · exact .inl (by omega)
  · rintro (rfl | rfl) i chunk hchunk
    · have hmem := List.mem_of_getElem? hchunk
      have hindex := h.index_at hchunk
      rw [h.prev chunk hmem, h.next chunk hmem, hindex, Nat.zero_add, Nat.zero_add]
      constructor
      · cases i with
        | zero => rfl
        | succ i =>
          have hlt := (List.getElem?_eq_some_iff.1 hchunk).1
          have hbefore : row[i]? = some row[i] := List.getElem?_eq_getElem (by omega)
          rw [chunkBefore, hbefore, linkTo, h.index_at hbefore, prevIndex, if_pos (Nat.succ_pos i)]
          simp
      · rw [nextIndex]
        split
        · next hlt =>
          have hafter : row[i + 1]? = some row[i + 1] := List.getElem?_eq_getElem hlt
          rw [hafter, linkTo, h.index_at hafter]
          simp
        · next hge =>
          rw [List.getElem?_eq_none (by omega)]
          rfl
    · exact absurd hchunk (by simp)

/-- Links go both ways. -/
theorem next_iff_prev (h : RowLinks base row) {a b : DocumentChunk} (ha : a ∈ row) (hb : b ∈ row) :
    Dict.get a.metadata "next_chunk_index" = .int b.chunkIndex ↔
      Dict.get b.metadata "prev_chunk_index" = .int a.chunkIndex := by
  have hbound : ∀ chunk ∈ row, chunk.chunkIndex < base + row.length := fun chunk hchunk ↦ by
    have hmem := List.mem_map_of_mem (f := DocumentChunk.chunkIndex) hchunk
    rw [h.numbered, List.mem_range'_1] at hmem
    exact hmem.2
  have hlast := hbound b hb
  rw [h.next a ha, h.prev b hb, nextIndex, prevIndex]
  constructor
  · intro hnext
    split at hnext
    · have hsucc : (a.chunkIndex : ℤ) + 1 = b.chunkIndex := by simpa using hnext
      rw [if_pos (by omega)]
      exact congrArg Value.int (by omega)
    · exact absurd hnext (by simp)
  · intro hprev
    split at hprev
    · next hpos =>
      have hpred : (b.chunkIndex : ℤ) - 1 = a.chunkIndex := by simpa using hprev
      rw [if_pos (by omega)]
      exact congrArg Value.int (by omega)
    · exact absurd hprev (by simp)

end RowLinks

/-! ### The first pass -/

/-- What the first pass writes of a parent. -/
structure ParentMeta (config : RagConfig) (parents i : ℕ) (metadata : Dict) : Prop where
  role : metadata.Says "chunk_role" (.str (if config.parentChildChunking then "parent" else "chunk"))
  index : metadata.Says "chunk_index" (.int i)
  prev : metadata.Says "prev_chunk_index" (prevIndex i)
  next : metadata.Says "next_chunk_index" (nextIndex i parents)
  count : metadata.Says "chunk_count" (.int parents)

section FirstPass

variable (config : RagConfig) (request : ChunkRequest)

theorem says_parentMetadata (index overlapChars : ℕ) (content : String) (tokenCount : ℕ) (metadata : Dict) :
    (parentMetadata config request index overlapChars content tokenCount metadata).Says "chunk_role"
        (.str (if config.parentChildChunking then "parent" else "chunk")) ∧
      (parentMetadata config request index overlapChars content tokenCount metadata).Says "chunk_index"
        (.int index) := by
  constructor
  · exact Dict.Says.update (by simp [Dict.Says])
  · exact Dict.Says.update (by simp [Dict.Says])

theorem parentsFrom_at {first i : ℕ} {previous : String} {pieces : List Piece} {parent : Piece}
    (h : (parentsFrom config request first previous pieces)[i]? = some parent) :
    parent.2.2.Says "chunk_role" (.str (if config.parentChildChunking then "parent" else "chunk")) ∧
      parent.2.2.Says "chunk_index" (.int (first + i : ℕ)) := by
  induction pieces generalizing first previous i with
  | nil => exact nomatch h
  | cons piece pieces ih =>
    obtain ⟨content, tokenCount, metadata⟩ := piece
    rw [parentsFrom] at h
    cases i with
    | zero =>
      rw [List.getElem?_cons_zero, Option.some_inj] at h
      rw [← h, Nat.add_zero]
      dsimp only
      exact says_parentMetadata config request first _ content tokenCount metadata
    | succ i =>
      rw [List.getElem?_cons_succ] at h
      obtain ⟨hrole, hindex⟩ := ih h
      refine ⟨hrole, ?_⟩
      rwa [Nat.add_assoc, Nat.add_comm 1] at hindex

/-- The contents stay. -/
theorem map_fst_parentsFrom (index : ℕ) (previous : String) (pieces : List Piece) :
    (parentsFrom config request index previous pieces).map Prod.fst = pieces.map Prod.fst := by
  induction pieces generalizing index previous with
  | nil => rfl
  | cons piece pieces ih =>
    obtain ⟨content, tokenCount, metadata⟩ := piece
    rw [parentsFrom, List.map_cons, List.map_cons, ih]

/-- The parents of the pieces, linked. -/
def parentsOf (pieces : List Piece) : List Piece := linkParents (parentsFrom config request 0 "" pieces)

theorem map_fst_parentsOf (pieces : List Piece) :
    (parentsOf config request pieces).map Prod.fst = pieces.map Prod.fst := by
  rw [parentsOf, linkParents, ← map_fst_parentsFrom config request 0 "" pieces]
  exact List.ext_getElem (by simp) fun i _ _ ↦ by simp

theorem parentMeta_parentsOf {pieces : List Piece} {i : ℕ} {parent : Piece}
    (h : (parentsOf config request pieces)[i]? = some parent) :
    ParentMeta config (parentsOf config request pieces).length i parent.2.2 := by
  have hlength : (parentsOf config request pieces).length = (parentsFrom config request 0 "" pieces).length :=
    List.length_mapIdx
  rw [hlength]
  rw [parentsOf, linkParents, List.getElem?_mapIdx] at h
  obtain ⟨bare, hbare, rfl⟩ := Option.map_eq_some_iff.1 h
  obtain ⟨hrole, hindex⟩ := parentsFrom_at config request hbare
  rw [Nat.zero_add] at hindex
  exact
    { role := hrole.update_of_ne (by simp)
      index := hindex.update_of_ne (by simp)
      prev := Dict.Says.update (by simp [Dict.Says])
      next := Dict.Says.update (by simp [Dict.Says])
      count := Dict.Says.update (by simp [Dict.Says]) }

end FirstPass

/-! ### The chunks of the parents -/

section Parents

variable {config : RagConfig} (request : ChunkRequest) {parents : List Piece}

/-- What the first pass has written of all parents. -/
def ParentRow (config : RagConfig) (parents : List Piece) : Prop :=
  ∀ i parent, parents[i]? = some parent → ParentMeta config parents.length i parent.2.2

/-- A chunk for each parent, in order. -/
structure ChunkFor (config : RagConfig) (parents i count : ℕ) (chunk : DocumentChunk) : Prop where
  number : chunk.chunkIndex = i
  role : Dict.get chunk.metadata "chunk_role" = .str (if config.parentChildChunking then "parent" else "chunk")
  index : Dict.get chunk.metadata "chunk_index" = .int i
  prev : Dict.get chunk.metadata "prev_chunk_index" = prevIndex i
  next : Dict.get chunk.metadata "next_chunk_index" = nextIndex i parents
  count : Dict.get chunk.metadata "chunk_count" = .int count

theorem length_plainChunks : (plainChunks request parents).length = parents.length := List.length_mapIdx

theorem length_parentChunks : (parentChunks request parents).length = parents.length := List.length_mapIdx

theorem plainChunks_at (hrow : ParentRow config parents) {i : ℕ} {chunk : DocumentChunk}
    (h : (plainChunks request parents)[i]? = some chunk) :
    ChunkFor config parents.length i parents.length chunk := by
  rw [plainChunks, List.getElem?_mapIdx] at h
  obtain ⟨⟨content, tokenCount, metadata⟩, hparent, rfl⟩ := Option.map_eq_some_iff.1 h
  have hmeta := hrow i _ hparent
  exact
    { number := rfl
      role := hmeta.role.update.get_eq
      index := hmeta.index.update.get_eq
      prev := hmeta.prev.update.get_eq
      next := hmeta.next.update.get_eq
      count := hmeta.count.update.get_eq }

/-- The last loop only counts the chunks, where a chunk is not a child. -/
theorem relinkChunk_of_not_child {chunk : DocumentChunk} {count : ℕ} (parents : ℕ)
    (h : isChild (Dict.put chunk.metadata "chunk_count" (.int count)) = false) :
    relinkChunk count parents chunk =
      { chunk with metadata := Dict.put chunk.metadata "chunk_count" (.int count) } := by
  rw [relinkChunk, h]
  rfl

/-- It leaves the links of a parent as they are. -/
theorem chunkFor_relinkChunk {chunk : DocumentChunk} (hrole : config.parentChildChunking = true) {i count parents : ℕ}
    (hnumber : chunk.chunkIndex = i) (hparent : chunk.metadata.Says "chunk_role" (.str "parent"))
    (hindex : chunk.metadata.Says "chunk_index" (.int i))
    (hprev : chunk.metadata.Says "prev_chunk_index" (prevIndex i))
    (hnext : chunk.metadata.Says "next_chunk_index" (nextIndex i parents)) :
    ChunkFor config parents i count (relinkChunk count parents chunk) := by
  have hkept : Dict.get (Dict.put chunk.metadata "chunk_count" (.int count)) "chunk_role" = .str "parent" :=
    (hparent.put_of_ne (by decide) _).get_eq
  have hchild : isChild (Dict.put chunk.metadata "chunk_count" (.int count)) = false := by
    rw [isChild, hkept]
    rfl
  rw [relinkChunk_of_not_child parents hchild]
  exact
    { number := hnumber
      role := by rw [hkept, hrole, if_pos rfl]
      index := (hindex.put_of_ne (by decide) _).get_eq
      prev := (hprev.put_of_ne (by decide) _).get_eq
      next := (hnext.put_of_ne (by decide) _).get_eq
      count := Dict.get_put_self }

theorem parentChunks_at (hrow : ParentRow config parents) (hrole : config.parentChildChunking = true) (count : ℕ)
    {i : ℕ} {chunk : DocumentChunk} (h : (parentChunks request parents)[i]? = some chunk) :
    ChunkFor config parents.length i count (relinkChunk count parents.length chunk) := by
  rw [parentChunks, List.getElem?_mapIdx] at h
  obtain ⟨⟨content, tokenCount, metadata⟩, hparent, rfl⟩ := Option.map_eq_some_iff.1 h
  have hmeta := hrow i _ hparent
  refine chunkFor_relinkChunk hrole rfl ?_ ?_ ?_ ?_
  · exact Dict.Says.update (by simp [Dict.Says])
  · exact Dict.Says.update (by simp [Dict.Says])
  · exact hmeta.prev.update_of_ne (by simp)
  · exact hmeta.next.update_of_ne (by simp)

end Parents

/-! ### The second pass -/

section Children

/-- What a child says of itself. -/
structure ChildMeta (parent : ℕ) (chunk : DocumentChunk) : Prop where
  role : chunk.metadata.Says "chunk_role" (.str "child")
  index : chunk.metadata.Says "chunk_index" (.int chunk.chunkIndex)
  parent : chunk.metadata.Says "parent_chunk_index" (.int parent)

/-- A child, linked. -/
structure ChildOf (parents count p : ℕ) (chunk : DocumentChunk) : Prop where
  role : Dict.get chunk.metadata "chunk_role" = .str "child"
  index : Dict.get chunk.metadata "chunk_index" = .int chunk.chunkIndex
  prev : Dict.get chunk.metadata "prev_chunk_index" = prevIndex chunk.chunkIndex
  next : Dict.get chunk.metadata "next_chunk_index" = nextIndex chunk.chunkIndex count
  parent : Dict.get chunk.metadata "parent_chunk_index" = .int p
  parentPrev : Dict.get chunk.metadata "parent_prev_chunk_index" = prevIndex p
  parentNext : Dict.get chunk.metadata "parent_next_chunk_index" = nextIndex p parents
  count : Dict.get chunk.metadata "chunk_count" = .int count

theorem parentPrevIndex_int (parent : ℕ) : parentPrevIndex (.int parent) = prevIndex parent := by
  simp only [parentPrevIndex, prevIndex, gt_iff_lt, Int.natCast_pos]

theorem parentNextIndex_int (parents parent : ℕ) :
    parentNextIndex parents (.int parent) = nextIndex parent parents := by
  have hlt : (parent : ℤ) + 1 < parents ↔ parent + 1 < parents := by omega
  simp only [parentNextIndex, nextIndex, hlt]

theorem childOf_relinkChunk {parent : ℕ} {chunk : DocumentChunk} (h : ChildMeta parent chunk) (parents count : ℕ) :
    ChildOf parents count parent (relinkChunk count parents chunk) := by
  have hrole : (Dict.put chunk.metadata "chunk_count" (.int count)).Says "chunk_role" (.str "child") :=
    h.role.put_of_ne (by decide) _
  have hindex : (Dict.put chunk.metadata "chunk_count" (.int count)).Says "chunk_index" (.int chunk.chunkIndex) :=
    h.index.put_of_ne (by decide) _
  have hparent : (Dict.put chunk.metadata "chunk_count" (.int count)).Says "parent_chunk_index" (.int parent) :=
    h.parent.put_of_ne (by decide) _
  have hcount : (Dict.put chunk.metadata "chunk_count" (.int count)).Says "chunk_count" (.int count) :=
    Dict.says_put_self
  have hchild : isChild (Dict.put chunk.metadata "chunk_count" (.int count)) = true := by
    rw [isChild, hrole.get_eq]
    rfl
  rw [relinkChunk, hchild, hparent.get_eq]
  dsimp only
  rw [if_pos rfl, parentPrevIndex_int, parentNextIndex_int]
  exact
    { role := (hrole.update_of_ne (by simp)).get_eq
      index := (hindex.update_of_ne (by simp)).get_eq
      prev := (Dict.Says.update (by simp [Dict.Says])).get_eq
      next := (Dict.Says.update (by simp [Dict.Says])).get_eq
      parent := (hparent.update_of_ne (by simp)).get_eq
      parentPrev := (Dict.Says.update (by simp [Dict.Says])).get_eq
      parentNext := (Dict.Says.update (by simp [Dict.Says])).get_eq
      count := (hcount.update_of_ne (by simp)).get_eq }

theorem childMeta_childChunk (request : ChunkRequest) (index parent parentTokens : ℕ) (parentMeta : Dict)
    (offset : ℕ) (window : Window) :
    ChildMeta parent (childChunk request index parent parentTokens parentMeta offset window) := by
  rw [childChunk, ChunkRequest.chunk]
  constructor
  all_goals
    dsimp only
    exact Dict.Says.update (by simp [Dict.Says])

variable {lib : TextLibrary} {request : ChunkRequest} {childSize childOverlap : ℤ} {model : String}

/-- The children are numbered on, and each names its parent. -/
theorem childChunks_spec {index parent : ℕ} {parents : List Piece} {children : List DocumentChunk}
    (h : childChunks lib request childSize childOverlap model index parent parents = .ok children) :
    children.map DocumentChunk.chunkIndex = List.range' index children.length ∧
      ∀ chunk ∈ children, ∃ i < parents.length, ChildMeta (parent + i) chunk := by
  induction parents generalizing index parent children with
  | nil =>
    obtain rfl := Except.ok.inj h
    exact ⟨rfl, fun _ hchunk ↦ absurd hchunk List.not_mem_nil⟩
  | cons piece parents ih =>
    obtain ⟨content, tokenCount, metadata⟩ := piece
    rw [childChunks] at h
    obtain ⟨windows, -, h⟩ := eq_ok_of_bind h
    obtain ⟨rest, hrest, h⟩ := eq_ok_of_bind h
    obtain rfl := Except.ok.inj h
    obtain ⟨hnumbers, hmeta⟩ := ih hrest
    constructor
    · rw [List.map_append, List.length_append, hnumbers, List.length_mapIdx, ← List.range'_append_1]
      refine congrArg (· ++ _) ?_
      exact List.ext_getElem (by simp) fun i _ _ ↦ by simp [childChunk, ChunkRequest.chunk]
    · intro chunk hchunk
      rcases List.mem_append.1 hchunk with hchunk | hchunk
      · obtain ⟨i, hi, rfl⟩ := List.mem_mapIdx.1 hchunk
        exact ⟨0, Nat.succ_pos _, childMeta_childChunk request _ parent tokenCount metadata i _⟩
      · obtain ⟨i, hi, hchild⟩ := hmeta chunk hchunk
        refine ⟨i + 1, Nat.succ_lt_succ hi, ?_⟩
        rwa [Nat.add_right_comm] at hchild

/-- A parent has windows unless it is empty, or they have no size. -/
theorem childWindows_eq_nil_iff {content : String} {windows : List Window}
    (h : childWindows lib content childSize childOverlap model = .ok windows) :
    windows = [] ↔ childSize < 1 ∨ content = "" := by
  rw [childWindows] at h
  split at h
  · next hnone =>
    obtain rfl := Except.ok.inj h
    exact iff_of_true rfl hnone
  · next hsome =>
    obtain ⟨found, -, h⟩ := eq_ok_of_map h
    refine iff_of_false (fun hnil ↦ ?_) hsome
    rw [hnil] at h
    split at h
    · exact absurd h (List.cons_ne_nil _ _)
    · next hfound => exact hfound (List.isEmpty_iff.2 h)

theorem childChunks_eq_nil_iff {index parent : ℕ} {parents : List Piece} {children : List DocumentChunk}
    (h : childChunks lib request childSize childOverlap model index parent parents = .ok children) :
    children = [] ↔ childSize < 1 ∨ ∀ piece ∈ parents, piece.1 = "" := by
  induction parents generalizing index parent children with
  | nil =>
    obtain rfl := Except.ok.inj h
    exact iff_of_true rfl (.inr fun _ hpiece ↦ absurd hpiece List.not_mem_nil)
  | cons piece parents ih =>
    obtain ⟨content, tokenCount, metadata⟩ := piece
    rw [childChunks] at h
    obtain ⟨windows, hwindows, h⟩ := eq_ok_of_bind h
    obtain ⟨rest, hrest, h⟩ := eq_ok_of_bind h
    obtain rfl := Except.ok.inj h
    have hmapped : (windows.mapIdx fun offset window ↦
        childChunk request (index + offset) parent tokenCount metadata offset window) = [] ↔ windows = [] :=
      List.mapIdx_eq_nil_iff
    rw [List.append_eq_nil_iff, hmapped, childWindows_eq_nil_iff hwindows, ih hrest, List.forall_mem_cons]
    tauto

end Children

/-! ### Consistency -/

/-- What is promised of the chunks of a document. -/
structure Consistent (chunks : List DocumentChunk) : Prop where
  numbered : chunks.map DocumentChunk.chunkIndex = List.range chunks.length
  indexed : ∀ chunk ∈ chunks, Dict.get chunk.metadata "chunk_index" = .int chunk.chunkIndex
  linked : ∀ role, Linked (chunks.filter (hasRole role))
  bothWays : ∀ role, ∀ a ∈ chunks.filter (hasRole role), ∀ b ∈ chunks.filter (hasRole role),
    Dict.get a.metadata "next_chunk_index" = .int b.chunkIndex ↔
      Dict.get b.metadata "prev_chunk_index" = .int a.chunkIndex
  parents : ∀ child ∈ chunks, hasRole "child" child → ∃ parent ∈ chunks, hasRole "parent" parent ∧
    Dict.get child.metadata "parent_chunk_index" = .int parent.chunkIndex ∧
    Dict.get child.metadata "parent_prev_chunk_index" = Dict.get parent.metadata "prev_chunk_index" ∧
    Dict.get child.metadata "parent_next_chunk_index" = Dict.get parent.metadata "next_chunk_index"
  counted : ∃ count, ∀ chunk ∈ chunks, Dict.get chunk.metadata "chunk_count" = count

section Consistency

theorem hasRole_of_get {chunk : DocumentChunk} {role : String}
    (h : Dict.get chunk.metadata "chunk_role" = .str role) (other : String) :
    hasRole other chunk = decide (role = other) := by
  rw [hasRole, h]

/-- All of a row have one role. -/
theorem filter_hasRole {row : List DocumentChunk} {role : String}
    (h : ∀ chunk ∈ row, Dict.get chunk.metadata "chunk_role" = .str role) (other : String) :
    row.filter (hasRole other) = if role = other then row else [] := by
  split
  · next heq =>
    refine List.filter_eq_self.2 fun chunk hchunk ↦ ?_
    rw [hasRole_of_get (h chunk hchunk), decide_eq_true heq]
  · next hne =>
    refine List.filter_eq_nil_iff.2 fun chunk hchunk ↦ ?_
    rw [hasRole_of_get (h chunk hchunk), decide_eq_false hne]
    exact Bool.false_ne_true

theorem linked_nil : Linked [] := fun _ _ h ↦ nomatch h

/-- Of two rows with roles of their own, each is linked for itself. -/
theorem linked_filter_append_iff {first second : List DocumentChunk} {role role' : String} (hne : role ≠ role')
    (hfirst : ∀ chunk ∈ first, Dict.get chunk.metadata "chunk_role" = .str role)
    (hsecond : ∀ chunk ∈ second, Dict.get chunk.metadata "chunk_role" = .str role') :
    (∀ other, Linked ((first ++ second).filter (hasRole other))) ↔ Linked first ∧ Linked second := by
  simp only [List.filter_append, filter_hasRole hfirst, filter_hasRole hsecond]
  constructor
  · intro h
    have hone := h role
    have htwo := h role'
    rw [if_pos rfl, if_neg hne.symm, List.append_nil] at hone
    rw [if_neg hne, if_pos rfl, List.nil_append] at htwo
    exact ⟨hone, htwo⟩
  · rintro ⟨hone, htwo⟩ other
    by_cases heq : role = other
    · rw [if_pos heq, if_neg fun h ↦ hne (heq.trans h.symm), List.append_nil]
      exact hone
    · rw [if_neg heq, List.nil_append]
      split
      · exact htwo
      · exact linked_nil

variable {config : RagConfig} {first second : List DocumentChunk} {count : ℕ}

theorem rowLinks_of_chunkFor (h : ∀ i chunk, first[i]? = some chunk → ChunkFor config first.length i count chunk) :
    RowLinks 0 first where
  numbered := List.ext_getElem (by simp) fun i hi _ ↦ by
    rw [List.length_map] at hi
    rw [List.getElem_map, (h i _ (List.getElem?_eq_getElem hi)).number]
    simp
  prev chunk hchunk := by
    obtain ⟨i, hi⟩ := List.mem_iff_getElem?.1 hchunk
    rw [(h i chunk hi).prev, (h i chunk hi).number]
  next chunk hchunk := by
    obtain ⟨i, hi⟩ := List.mem_iff_getElem?.1 hchunk
    rw [(h i chunk hi).next, (h i chunk hi).number, Nat.zero_add]

/-- **Nothing but the link of the first child is wrong.** -/
theorem consistent_append_iff {parents : ℕ} (hparents : first.length = parents)
    (hcount : count = parents + second.length)
    (hfirst : ∀ i chunk, first[i]? = some chunk → ChunkFor config parents i count chunk)
    (hnumbers : second.map DocumentChunk.chunkIndex = List.range' parents second.length)
    (hsecond : ∀ chunk ∈ second, ∃ p < parents, ChildOf parents count p chunk)
    (hrole : second ≠ [] → config.parentChildChunking = true) :
    Consistent (first ++ second) ↔ second = [] := by
  subst hparents
  have hfirstLinks := rowLinks_of_chunkFor hfirst
  have hsecondLinks : RowLinks first.length second :=
    { numbered := hnumbers
      prev := fun chunk hchunk ↦ (hsecond chunk hchunk).elim fun _ h ↦ h.2.prev
      next := fun chunk hchunk ↦ (hsecond chunk hchunk).elim fun _ h ↦ hcount ▸ h.2.next }
  have hfirstRole : ∀ chunk ∈ first, Dict.get chunk.metadata "chunk_role" =
      .str (if config.parentChildChunking then "parent" else "chunk") := fun chunk hchunk ↦ by
    obtain ⟨i, hi⟩ := List.mem_iff_getElem?.1 hchunk
    exact (hfirst i chunk hi).role
  have hsecondRole : ∀ chunk ∈ second, Dict.get chunk.metadata "chunk_role" = .str "child" :=
    fun chunk hchunk ↦ (hsecond chunk hchunk).elim fun _ h ↦ h.2.role
  have hne : (if config.parentChildChunking then "parent" else "chunk") ≠ "child" := by split <;> decide
  have hlinked : Linked second ↔ second = [] := by
    rw [hsecondLinks.linked_iff]
    refine ⟨fun h ↦ h.elim (fun hzero ↦ ?_) id, .inr⟩
    refine List.eq_nil_iff_forall_not_mem.2 fun chunk hchunk ↦ ?_
    obtain ⟨p, hp, -⟩ := hsecond chunk hchunk
    omega
  rw [← hlinked]
  refine ⟨fun h ↦ ((linked_filter_append_iff hne hfirstRole hsecondRole).1 h.linked).2, fun h ↦ ?_⟩
  exact
    { numbered := by
        rw [List.map_append, hfirstLinks.numbered, hnumbers, List.length_append, List.range_eq_range']
        have happend : List.range' 0 first.length ++ List.range' (0 + first.length) second.length = _ :=
          List.range'_append_1
        rwa [Nat.zero_add] at happend
      indexed := fun chunk hchunk ↦ by
        rcases List.mem_append.1 hchunk with hchunk | hchunk
        · obtain ⟨i, hi⟩ := List.mem_iff_getElem?.1 hchunk
          rw [(hfirst i chunk hi).index, (hfirst i chunk hi).number]
        · exact (hsecond chunk hchunk).elim fun _ h ↦ h.2.index
      linked := (linked_filter_append_iff hne hfirstRole hsecondRole).2
        ⟨hfirstLinks.linked_iff.2 (.inl rfl), h⟩
      bothWays := fun role a ha b hb ↦ by
        rw [List.filter_append, filter_hasRole hfirstRole, filter_hasRole hsecondRole] at ha hb
        by_cases hparent : (if config.parentChildChunking then "parent" else "chunk") = role
        · rw [if_pos hparent, if_neg fun h ↦ hne (hparent.trans h.symm), List.append_nil] at ha hb
          exact hfirstLinks.next_iff_prev ha hb
        · rw [if_neg hparent, List.nil_append] at ha hb
          split at ha
          · next hchild =>
            rw [if_pos hchild] at hb
            exact hsecondLinks.next_iff_prev ha hb
          · exact absurd ha List.not_mem_nil
      parents := fun child hchild hrow ↦ by
        rcases List.mem_append.1 hchild with hchild | hchild
        · rw [hasRole_of_get (hfirstRole child hchild), decide_eq_false hne] at hrow
          exact absurd hrow Bool.false_ne_true
        · obtain ⟨p, hp, hof⟩ := hsecond child hchild
          have hat : first[p]? = some first[p] := List.getElem?_eq_getElem hp
          have hparent := hfirst p _ hat
          have hmode := hrole (List.ne_nil_of_mem hchild)
          refine ⟨first[p], List.mem_append_left _ (List.getElem_mem hp), ?_, ?_, ?_, ?_⟩
          · rw [hasRole_of_get hparent.role, hmode]
            rfl
          · rw [hof.parent, hparent.number]
          · rw [hof.parentPrev, hparent.prev]
          · rw [hof.parentNext, hparent.next]
      counted := ⟨.int count, fun chunk hchunk ↦ by
        rcases List.mem_append.1 hchunk with hchunk | hchunk
        · obtain ⟨i, hi⟩ := List.mem_iff_getElem?.1 hchunk
          exact (hfirst i chunk hi).count
        · exact (hsecond chunk hchunk).elim fun _ h ↦ h.2.count⟩ }

theorem consistent_plainChunks (request : ChunkRequest) {parents : List Piece} (hrow : ParentRow config parents) :
    Consistent (plainChunks request parents) := by
  have hat : ∀ i chunk, (plainChunks request parents)[i]? = some chunk →
      ChunkFor config (plainChunks request parents).length i (plainChunks request parents).length chunk := by
    intro i chunk hchunk
    rw [length_plainChunks]
    exact plainChunks_at request hrow hchunk
  have happend := (consistent_append_iff rfl rfl hat rfl (fun _ h ↦ absurd h List.not_mem_nil)
    (fun h ↦ absurd rfl h)).2 rfl
  rwa [List.append_nil] at happend

theorem consistent_familyChunks_iff {lib : TextLibrary} {request : ChunkRequest} {childSize childOverlap : ℤ}
    {model : String} {parents : List Piece} {chunks : List DocumentChunk} (hrow : ParentRow config parents)
    (hrole : config.parentChildChunking = true)
    (h : familyChunks lib request childSize childOverlap model parents = .ok chunks) :
    Consistent chunks ↔ childSize < 1 ∨ ∀ piece ∈ parents, piece.1 = "" := by
  rw [familyChunks] at h
  obtain ⟨children, hchildren, h⟩ := eq_ok_of_bind h
  obtain rfl := Except.ok.inj h
  obtain ⟨hnumbers, hmeta⟩ := childChunks_spec hchildren
  rw [← childChunks_eq_nil_iff hchildren, List.map_append]
  have hlength : (parentChunks request parents).length = parents.length := length_parentChunks request
  generalize hcount : (parentChunks request parents ++ children).length = count
  rw [List.length_append, hlength] at hcount
  have hparents : ((parentChunks request parents).map (relinkChunk count parents.length)).length = parents.length := by
    rw [List.length_map, hlength]
  have hfirst : ∀ i chunk, ((parentChunks request parents).map (relinkChunk count parents.length))[i]? = some chunk →
      ChunkFor config parents.length i count chunk := by
    intro i chunk hchunk
    rw [List.getElem?_map] at hchunk
    obtain ⟨bare, hbare, rfl⟩ := Option.map_eq_some_iff.1 hchunk
    exact parentChunks_at request hrow hrole count hbare
  have hnumbers : (children.map (relinkChunk count parents.length)).map DocumentChunk.chunkIndex =
      List.range' parents.length (children.map (relinkChunk count parents.length)).length := by
    rw [List.map_map, List.length_map]
    exact hnumbers
  have hsecond : ∀ chunk ∈ children.map (relinkChunk count parents.length),
      ∃ p < parents.length, ChildOf parents.length count p chunk := by
    intro chunk hchunk
    obtain ⟨bare, hbare, rfl⟩ := List.mem_map.1 hchunk
    obtain ⟨i, hi, hchild⟩ := hmeta bare hbare
    rw [Nat.zero_add] at hchild
    exact ⟨i, hi, childOf_relinkChunk hchild parents.length count⟩
  have htotal : count = parents.length + (children.map (relinkChunk count parents.length)).length := by
    rw [List.length_map, hcount]
  rw [consistent_append_iff hparents htotal hfirst hnumbers hsecond fun _ ↦ hrole, List.map_eq_nil_iff]

/-- The pieces of which the parents are made. -/
def piecesOf (lib : TextLibrary) (config : RagConfig) (split : List (String × Dict)) : List Piece :=
  split.map fun (content, metadata) ↦ (content, lib.estimateTokens content config.embeddingModel, metadata)

/-- The limit refuses chunks, it does not change them. -/
theorem eq_of_limit {settings : Settings} {made chunks : List DocumentChunk}
    (h : (if (made.length : ℤ) > settings.ragMaxDocumentChunks then
      .error (.http 413 "Document produces more chunks than the configured limit.")
      else .ok made : Except ChunkError (List DocumentChunk)) = .ok chunks) : made = chunks := by
  split at h
  · exact nomatch h
  · exact Except.ok.inj h

/-- **When the links are consistent.** There are no children: none are asked for, they have no size, or the document
is cut into empty pieces. A first child is linked to the last parent. -/
theorem consistent_chunk_iff (lib : TextLibrary) (settings : Settings) (config : RagConfig)
    (documents : List ParsedDocument) (request : ChunkRequest) {chunks : List DocumentChunk}
    (h : chunk lib settings config documents request = .ok chunks) :
    Consistent chunks ↔ config.parentChildChunking = false ∨ childSizeOf config < 1 ∨
      ∀ split, splitDocuments lib documents (splitterArgs config) = .ok split → ∀ piece ∈ split, piece.1 = "" := by
  obtain ⟨split, hsplit, h⟩ := eq_ok_of_bind h
  dsimp only at h
  have hrow : ParentRow config (parentsOf config request (piecesOf lib config split)) :=
    fun i parent hparent ↦ parentMeta_parentsOf config request hparent
  by_cases hrole : config.parentChildChunking = true
  · rw [if_pos hrole] at h
    obtain ⟨made, hmade, h⟩ := eq_ok_of_bind h
    obtain rfl := eq_of_limit h
    have hcontents : (∀ piece ∈ parentsOf config request (piecesOf lib config split), piece.1 = "") ↔
        ∀ piece ∈ split, piece.1 = "" := by
      have hfst : (piecesOf lib config split).map Prod.fst = split.map Prod.fst := List.map_map
      rw [← List.forall_mem_map (P := fun content ↦ content = ""), map_fst_parentsOf, hfst, List.forall_mem_map]
    rw [consistent_familyChunks_iff hrow hrole hmade, hcontents, hrole, hsplit]
    simp
  · rw [if_neg hrole] at h
    obtain ⟨made, hmade, h⟩ := eq_ok_of_bind h
    obtain rfl := eq_of_limit h
    obtain rfl := Except.ok.inj hmade
    exact iff_of_true (consistent_plainChunks request hrow) (.inl (eq_false_of_ne_true hrole))

/-- A splitter that leaves a text whole. -/
def wholeLibrary : TextLibrary where
  splitter _ := .ok fun text ↦ [text]
  estimateTokens _ _ := 1
  encodeText _ _ := none
  decodeTokens _ _ := none

/-- A configuration with parents and children. -/
def familyConfig : RagConfig where
  enabled := true
  embeddingProvider := "openai"
  embeddingModel := "text-embedding-3-small"
  embeddingDimensions := 1536
  chunkSize := 8
  chunkOverlap := 0
  topK := 5
  parentChildChunking := true

/-- A document of one piece: a parent with a child. -/
def familyRun : Except ChunkError (List DocumentChunk) :=
  chunk wholeLibrary Settings.default familyConfig [⟨"terms", [], none⟩] ⟨"1", "2", "terms.txt", none, none⟩

theorem familyRun_ok : ∃ chunks, familyRun = .ok chunks := ⟨_, rfl⟩

theorem consistent_chunk_iff_family : ∃ chunks, familyRun = .ok chunks ∧
    (Consistent chunks ↔ familyConfig.parentChildChunking = false ∨ childSizeOf familyConfig < 1 ∨
      ∀ split, splitDocuments wholeLibrary [⟨"terms", [], none⟩] (splitterArgs familyConfig) = .ok split →
        ∀ piece ∈ split, piece.1 = "") := by
  obtain ⟨chunks, hchunks⟩ := familyRun_ok
  exact ⟨chunks, hchunks, consistent_chunk_iff wholeLibrary Settings.default familyConfig _ _ hchunks⟩

/-- The only child of the document is linked to its parent. -/
theorem first_child_linked_to_parent : ∃ chunks, familyRun = .ok chunks ∧
    (chunks.map fun chunk ↦
      (chunk.chunkIndex, hasRole "child" chunk, (Dict.get chunk.metadata "prev_chunk_index").asInt)) =
        [(0, false, none), (1, true, some 0)] ∧
    ¬Consistent chunks := by
  obtain ⟨chunks, hchunks⟩ := familyRun_ok
  have hview : (familyRun.toOption.map fun chunks ↦ chunks.map fun chunk ↦
      (chunk.chunkIndex, hasRole "child" chunk, (Dict.get chunk.metadata "prev_chunk_index").asInt)) =
        some [(0, false, none), (1, true, some 0)] := by decide +kernel
  rw [hchunks] at hview
  have hview := Option.some.inj hview
  refine ⟨chunks, hchunks, hview, fun h ↦ ?_⟩
  obtain ⟨parent, children, rfl, hparent, hchildren⟩ := List.map_eq_cons_iff.1 hview
  obtain ⟨child, none, rfl, hchild, hnone⟩ := List.map_eq_cons_iff.1 hchildren
  obtain rfl := List.map_eq_nil_iff.1 hnone
  simp only [Prod.mk.injEq] at hparent hchild
  have hrow : [parent, child].filter (hasRole "child") = [child] := by
    rw [List.filter_cons_of_neg (by rw [hparent.2.1]; exact Bool.false_ne_true),
      List.filter_cons_of_pos hchild.2.1, List.filter_nil]
  have hlinked := h.linked "child" 0 child (by rw [hrow]; rfl)
  rw [hlinked.1] at hchild
  exact absurd hchild.2.2 (by simp [linkTo, chunkBefore, Value.asInt])

end Consistency

end GenericApp
