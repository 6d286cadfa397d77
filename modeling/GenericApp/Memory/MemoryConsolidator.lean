import Mathlib.Data.Finset.Card
import Mathlib.Data.List.Sort
import GenericApp.Memory.MemoryMetadata

/-!
# Memory items and their consolidation

A record of the store becomes a `MemoryItem` when it has an id and a text; its metadata is read, and where
that fails on a value, only in part.

`consolidate` merges what it is given: of items with the same text one is kept, the preferred one, at the
place of the first; confidence decays with age; and in every group of one type and level an item is dropped
that contradicts the most recent one. The confidence that the recency looks at is the calibrated one, so the
result depends on the instant.

Scores and confidences are the rational numbers they stand for.
-/

namespace GenericApp

open Py

/-! ### Items -/

/-- `MemoryItem` -/
structure MemoryItem where
  id : String
  content : String
  metadata : MemoryMetadata
  score : Option ℚ := none
  createdAt : Option DateTime := none
  updatedAt : Option DateTime := none

/-- What the store returns for a memory. Metadata that is not a dictionary counts as none. -/
structure RawMemory where
  id : Option String := none
  memoryId : Option String := none
  memory : Option String := none
  text : Option String := none
  content : Option String := none
  metadata : Option (Mapping MetaValue) := none
  score : Option ℚ := none
  createdAt : Option String := none
  updatedAt : Option String := none

variable (conv : Conversions)

/-- `_parse_dt` -/
def parseDt (value : Option String) : Option DateTime :=
  (given value).bind fun text ↦
    conv.fromisoformat (String.join (text.toList.map fun c ↦ if c = 'Z' then "+00:00" else c.toString))

/-- The metadata that is left where `from_dict` raises on a value: the level, the owner and the places. The
memory type is kept as it is there, which is not a type where the value is not one. -/
def fallbackMetadata (data : Mapping MetaValue) : Except PyError MemoryMetadata :=
  ((MemoryMetadata.getD data "memory_level" (.str "user")).toEnum MemoryLevel.ofValue).map fun level ↦
    { memoryLevel := level
      memoryType := (((MemoryMetadata.getD data "memory_type" (.str "fact")).toEnum
        MemoryType.ofValue).toOption).getD .fact
      userId := (MemoryMetadata.getD data "user_id" (.str "")).text conv
      agentId := (MemoryMetadata.getD data "agent_id" (.str "")).text conv
      runId := MemoryMetadata.getD data "run_id" .none
      projectId := MemoryMetadata.getD data "project_id" .none }

/-- The metadata of a record. -/
def readMetadata (data : Mapping MetaValue) : Except PyError MemoryMetadata :=
  match MemoryMetadata.fromDict conv data with
  | .error .valueError => fallbackMetadata conv data
  | result => result

/-- `_parse_memory_item` -/
def parseMemoryItem (raw : RawMemory) : Except PyError (Option MemoryItem) :=
  match (given raw.id).or (given raw.memoryId),
    ((given raw.memory).or (given raw.text)).or (given raw.content) with
  | some memoryId, some content =>
    (readMetadata conv (raw.metadata.getD .empty)).map fun metadata ↦ some
      { id := memoryId
        content := content
        metadata := metadata
        score := raw.score
        createdAt := parseDt conv raw.createdAt
        updatedAt := parseDt conv raw.updatedAt }
  | _, _ => .ok none

/-! ### Confidence and recency -/

/-- `instant.timestamp()` -/
def timestamp (instant : DateTime) : ℚ := instant / 1000000

/-- The confidence of an item at an instant. -/
def calibratedConfidence (now : DateTime) (item : MemoryItem) : ℚ :=
  let stored := max 0 (min 1 item.metadata.confidence)
  let retrieved := match item.score with
    | some score => stored * (7 / 10) + max 0 (min 1 score) * (3 / 10)
    | none => stored
  let decayed := match item.metadata.lastConfirmedAt.or item.metadata.createdAt with
    | some reference =>
      let ageDays := max 0 (timestamp (now - reference) / 86400)
      retrieved * max (3 / 4) (1 - ageDays / 3650)
    | none => retrieved
  roundTo 4 decayed

/-- `calibrate_confidence` -/
def calibrateConfidence (now : DateTime) (items : List MemoryItem) : List MemoryItem :=
  items.map fun item ↦
    { item with metadata := { item.metadata with confidence := calibratedConfidence now item } }

/-- `_recency_score` -/
def recencyScore (item : MemoryItem) : ℚ :=
  let confirmed := item.metadata.lastConfirmedAt.or item.metadata.createdAt
  let seen := item.metadata.lastSeenAt.or confirmed
  (confirmed.map timestamp).getD 0 + (seen.map fun instant ↦ timestamp instant / 1000).getD 0 +
    item.metadata.confidence

/-- `_pick_preferred` -/
def pickPreferred (left right : MemoryItem) : MemoryItem :=
  if recencyScore left ≥ recencyScore right then left else right

/-! ### Texts -/

/-- `text.split()` -/
def splitWords (text : String) : List String :=
  ((charRuns (fun c ↦ !isSpace c) [] text.toList).filter fun run ↦ !run.isEmpty).map String.ofList

/-- `_similarity_key` -/
def similarityKey (content : String) : String :=
  slice 160 (" ".intercalate (splitWords (conv.lower content)))

/-- `negations` -/
def negations : List String :=
  ["not ", "no longer ", "don't ", "do not ", "doesn't ", "isn't ", "never ", "stopped ", "switched from ",
    "used to "]

/-- `ignored` -/
def ignoredTerms : List String :=
  ["not", "no", "longer", "do", "dont", "doesnt", "isnt", "never", "stopped", "switched", "from", "used", "to"]

/-- `any(neg in text for neg in negations)` -/
def isNegated (text : String) : Bool := negations.any fun negation ↦ (find text negation 0).isSome

/-- `term.rstrip("s")` -/
def stripPlural (term : String) : String := String.ofList ((term.toList.reverse.dropWhile (· = 's')).reverse)

/-- The characters of `[a-z0-9]`. -/
def termChar (c : Char) : Bool := ('a' ≤ c ∧ c ≤ 'z') ∨ ('0' ≤ c ∧ c ≤ '9')

/-- The terms of a text, without those that are ignored. -/
def contentTerms (text : String) : Finset String :=
  (((((charRuns termChar [] text.toList).filter fun run ↦ !run.isEmpty).map String.ofList).filter
    fun term ↦ !ignoredTerms.contains term).map stripPlural).toFinset

/-- The words of `uses?|using|prefer(?:s|red)?|chosen|selected`. -/
def contextWords : List String :=
  ["uses", "use", "using", "prefers", "preferred", "prefer", "chosen", "selected"]

/-- A word of the pattern stands here, with no word character before it and none after it. -/
def contextWordAt (before : Option Char) (rest : List Char) : Bool :=
  !before.any conv.wordChar && contextWords.any fun word ↦
    word.toList.isPrefixOf rest && !(rest.drop word.length).head?.any conv.wordChar

/-- The text up to the first word of the pattern, `before` being the character in front of it. -/
def beforeContextWord : Option Char → List Char → List Char
  | _, [] => []
  | before, c :: rest =>
    if contextWordAt conv before (c :: rest) then [] else c :: beforeContextWord (some c) rest

/-- `re.split(context_pattern, text, maxsplit=1)[0].strip()` -/
def leadingContext (text : String) : String := strip (String.ofList (beforeContextWord conv none text.toList))

/-- `_contradicts` -/
def contradicts (left right : String) : Bool :=
  let leftLower := conv.lower left
  let rightLower := conv.lower right
  if isNegated leftLower = isNegated rightLower then false
  else
    let leftTerms := contentTerms leftLower
    let rightTerms := contentTerms rightLower
    let overlap : ℚ := (leftTerms ∩ rightTerms).card / max (leftTerms ∪ rightTerms).card 1
    if overlap ≥ 6 / 10 then true
    else
      let leftContext := leadingContext conv leftLower
      leftContext ≠ "" ∧ leftContext = leadingContext conv rightLower

/-! ### Consolidation -/

/-- One item more, merged with those of its text. -/
def mergeItem (grouped : Mapping MemoryItem) (item : MemoryItem) : Mapping MemoryItem :=
  let key := similarityKey conv item.content
  match grouped.get? key with
  | none => grouped.put key item
  | some existing => grouped.put key (pickPreferred existing item)

/-- `grouped.values()` after the loop. -/
def mergeDuplicates (items : List MemoryItem) : List MemoryItem :=
  ((items.foldl (mergeItem conv) .empty).entries).map Prod.snd

/-- The type and the level of an item. -/
def groupKey (item : MemoryItem) : String :=
  item.metadata.memoryType.value ++ ":" ++ item.metadata.memoryLevel.value

/-- One item more, in the group of its type and level. -/
def groupItem (byType : Mapping (List MemoryItem)) (item : MemoryItem) : Mapping (List MemoryItem) :=
  byType.put (groupKey item) ((byType.get? (groupKey item)).getD [] ++ [item])

/-- What is left of a group: the most recent item last, and before it those that do not contradict it. -/
def uncontradicted (group : List MemoryItem) : List MemoryItem :=
  if group.length = 1 then group
  else
    match group.insertionSort fun a b ↦ recencyScore a ≥ recencyScore b with
    | [] => []
    | winner :: challengers =>
      (challengers.filter fun challenger ↦ !contradicts conv winner.content challenger.content) ++ [winner]

/-- `mark_contradictions` -/
def markContradictions (items : List MemoryItem) : List MemoryItem :=
  ((items.foldl groupItem .empty).entries).flatMap fun entry ↦ uncontradicted conv entry.2

/-- `consolidate` -/
def consolidate (now : DateTime) (items : List MemoryItem) : List MemoryItem :=
  if items.isEmpty then []
  else markContradictions conv (calibrateConfidence now (mergeDuplicates conv items))

/-! ### Sizes -/

variable {conv}

theorem length_mergeItem_le (grouped : Mapping MemoryItem) (item : MemoryItem) :
    (mergeItem conv grouped item).entries.length ≤ grouped.entries.length + 1 := by
  rw [mergeItem]
  rcases hget : grouped.get? (similarityKey conv item.content) with - | existing
  · simp only [Mapping.entries_put_of_none _ hget, List.length_append, List.length_singleton, le_refl]
  · obtain ⟨left, right, hentries, hput⟩ :=
      Mapping.entries_put_of_some (pickPreferred existing item) hget
    simp only [hput, hentries, List.length_append, List.length_cons]
    omega

theorem mergeItem_ne_nil (grouped : Mapping MemoryItem) (item : MemoryItem) :
    (mergeItem conv grouped item).entries ≠ [] := by
  rw [mergeItem]
  rcases hget : grouped.get? (similarityKey conv item.content) with - | existing
  · simp [Mapping.entries_put_of_none _ hget]
  · obtain ⟨left, right, -, hput⟩ :=
      Mapping.entries_put_of_some (pickPreferred existing item) hget
    simp [hput]

theorem length_mergeDuplicates_le (items : List MemoryItem) :
    (mergeDuplicates conv items).length ≤ items.length := by
  have hfold (grouped : Mapping MemoryItem) :
      (items.foldl (mergeItem conv) grouped).entries.length ≤ grouped.entries.length + items.length := by
    induction items generalizing grouped with
    | nil => exact le_refl _
    | cons item items ih =>
      have hitem := @length_mergeItem_le conv grouped item
      have hrest := ih (mergeItem conv grouped item)
      rw [List.foldl_cons, List.length_cons]
      omega
  rw [mergeDuplicates, List.length_map]
  exact (hfold .empty).trans_eq (Nat.zero_add _)

theorem mergeDuplicates_ne_nil {items : List MemoryItem} (h : items ≠ []) : mergeDuplicates conv items ≠ [] := by
  obtain ⟨item, last, rfl⟩ := List.eq_nil_or_concat items |>.resolve_left h
  simp [mergeDuplicates, List.foldl_append, mergeItem_ne_nil]

/-- The groups are made of the items. -/
theorem groups_perm (items : List MemoryItem) (byType : Mapping (List MemoryItem)) :
    ((items.foldl groupItem byType).entries.flatMap Prod.snd).Perm
      (byType.entries.flatMap Prod.snd ++ items) := by
  induction items generalizing byType with
  | nil => simp
  | cons item items ih =>
    refine (ih (groupItem byType item)).trans ?_
    have hitem : ((groupItem byType item).entries.flatMap Prod.snd).Perm
        (byType.entries.flatMap Prod.snd ++ [item]) := by
      rw [groupItem]
      rcases hget : byType.get? (groupKey item) with - | group
      · simp [Mapping.entries_put_of_none _ hget]
      · obtain ⟨left, right, hentries, hput⟩ :=
          Mapping.entries_put_of_some (group ++ [item]) hget
        simp only [Option.getD_some, hput, hentries, List.flatMap_append, List.flatMap_cons, List.append_assoc]
        exact (List.perm_append_comm.append_left group).append_left _
    rw [← List.singleton_append, ← List.append_assoc]
    exact hitem.append_right items

theorem length_uncontradicted_le (group : List MemoryItem) :
    (uncontradicted conv group).length ≤ group.length := by
  rw [uncontradicted]
  split
  · exact le_refl _
  · have hlength := List.length_insertionSort (fun a b ↦ recencyScore a ≥ recencyScore b) group
    split
    · exact Nat.zero_le _
    · next winner challengers hsort =>
      rw [hsort, List.length_cons] at hlength
      rw [List.length_append, List.length_singleton, ← hlength]
      exact Nat.succ_le_succ (List.length_filter_le _ _)

theorem uncontradicted_ne_nil {group : List MemoryItem} (h : group ≠ []) : uncontradicted conv group ≠ [] := by
  rw [uncontradicted]
  split
  · exact h
  · split
    · next hsort =>
      have hlength := List.length_insertionSort (fun a b ↦ recencyScore a ≥ recencyScore b) group
      rw [hsort] at hlength
      exact absurd (List.length_eq_zero_iff.1 hlength.symm) h
    · simp

/-- **Consolidation makes no items.** -/
theorem length_consolidate_le (now : DateTime) (items : List MemoryItem) :
    (consolidate conv now items).length ≤ items.length := by
  rw [consolidate]
  split
  · exact Nat.zero_le _
  · have hgroups (entries : List (String × List MemoryItem)) :
        (entries.flatMap fun entry ↦ uncontradicted conv entry.2).length ≤
          (entries.flatMap Prod.snd).length := by
      induction entries with
      | nil => exact le_refl _
      | cons entry entries ih =>
        simp only [List.flatMap_cons, List.length_append]
        exact Nat.add_le_add (length_uncontradicted_le entry.2) ih
    calc (markContradictions conv (calibrateConfidence now (mergeDuplicates conv items))).length
      _ ≤ _ := hgroups _
      _ = (calibrateConfidence now (mergeDuplicates conv items)).length := by
        rw [(groups_perm _ _).length_eq]
        rfl
      _ = (mergeDuplicates conv items).length := List.length_map _
      _ ≤ items.length := length_mergeDuplicates_le items

/-- **Something is left of something.** -/
theorem consolidate_eq_nil_iff {now : DateTime} {items : List MemoryItem} :
    consolidate conv now items = [] ↔ items = [] := by
  rw [consolidate]
  constructor
  · intro h
    by_contra hne
    rw [if_neg (by simpa using hne), markContradictions] at h
    obtain ⟨item, hitem⟩ := List.exists_mem_of_ne_nil _ (@mergeDuplicates_ne_nil conv _ hne)
    have hcalibrated : ∃ calibrated, calibrated ∈ calibrateConfidence now (mergeDuplicates conv items) :=
      ⟨_, List.mem_map.2 ⟨item, hitem, rfl⟩⟩
    obtain ⟨calibrated, hcalibrated⟩ := hcalibrated
    have hgrouped := (groups_perm _ .empty).mem_iff.2 (List.mem_append_right _ hcalibrated)
    obtain ⟨entry, hentry, hmem⟩ := List.mem_flatMap.1 hgrouped
    exact uncontradicted_ne_nil (List.ne_nil_of_mem hmem) (List.flatMap_eq_nil_iff.1 h entry hentry)
  · rintro rfl
    rfl

end GenericApp
