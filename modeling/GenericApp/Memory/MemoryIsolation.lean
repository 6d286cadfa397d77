import GenericApp.Memory.MemoryService
import GenericApp.Memory.StoredMetadata

/-!
# Who reads what was remembered

A user is let through to an item by the metadata that the store has for it: by its level, its owner, its
scope. The metadata was built from the identity of the caller, but the dictionary of the request lies over
it, and a request may put there what it likes. `isolated_iff` says what a request must leave alone for its
memory to be the caller's, and the caller's only; `spoofed_memory` is one that is not.

The store keeps the metadata that it is handed and may return any record, with any text, score or date.
-/

namespace GenericApp

open Py

/-! ### Authorization -/

/-- `_item_authorized_for_read` -/
def itemAuthorizedForRead (userId : String) (accessibleProjectIds : List MetaValue) (item : MemoryItem) :
    Bool :=
  match item.metadata.memoryLevel with
  | .user | .session | .episodic => item.metadata.userId = userId
  | .project =>
    item.metadata.userId = userId ∧
      (item.metadata.projectId.truthy = false ∨ item.metadata.projectId ∈ accessibleProjectIds)
  | .agent =>
    item.metadata.scope = some .globalAgent ∨ item.metadata.userId = "" ∨ item.metadata.userId = userId

/-- A value that cannot be in a set. -/
def MetaValue.unhashable : MetaValue → Bool
  | compound _ _ => true
  | _ => false

/-- `project_ids`: the projects of the user's own project items. -/
def ownProjectIds (userId : String) (items : List MemoryItem) : List MetaValue :=
  (items.filter fun item ↦ item.metadata.memoryLevel = .project ∧ item.metadata.projectId.truthy = true ∧
    item.metadata.userId = userId).map fun item ↦ item.metadata.projectId

/-- `filter_authorized_read_items`, where `filterAccessible` is `filter_accessible_project_ids`. -/
def filterAuthorizedReadItems (filterAccessible : String → List MetaValue → List MetaValue) (userId : String)
    (items : List MemoryItem) : Except PyError (List MemoryItem) :=
  if (ownProjectIds userId items).any MetaValue.unhashable then .error .typeError
  else
    .ok (items.filter (itemAuthorizedForRead userId (filterAccessible userId (ownProjectIds userId items))))

/-! ### The registry, and a single memory -/

/-- The two values of `status`. -/
inductive RegistryStatus
  | active | deleted
deriving DecidableEq

/-- `MemoryRegistry`, of which the dates are left out. -/
structure RegistryRow where
  externalMemoryId : String
  userId : Option String
  agentId : Option String
  runId : Option String
  projectId : Option String
  memoryLevel : String
  memoryType : Option String
  status : RegistryStatus
deriving DecidableEq

/-- What `get_memory` answers other than an item. -/
inductive GetMemoryError
  /-- 404 `Memory not found` -/
  | notFound
  /-- 403 `You cannot access another user's memory` -/
  | otherUser
  /-- 403 `Project access denied` -/
  | projectDenied
  /-- 403 `You cannot access this memory` -/
  | denied
  /-- What Python raises for metadata that cannot be read. -/
  | unreadable (error : PyError)
deriving DecidableEq

/-- The checks of `get_memory` before the store is asked. -/
def checkRegistry (world : MemoryWorld) (userId : String) : Option RegistryRow → Except GetMemoryError Unit
  | none => .ok ()
  | some row =>
    if row.status ≠ .active then .error .notFound
    else if (given row.userId).any (· ≠ userId) then .error .otherUser
    else if (given row.projectId).any fun project ↦ !world.projectAccess project userId then
      .error .projectDenied
    else .ok ()

/-- `get_memory`, with the row of the registry and what the store has. -/
def getMemory (world : MemoryWorld) (filterAccessible : String → List MetaValue → List MetaValue)
    (userId : String) (registry : Option RegistryRow) (fetched : Option RawMemory) :
    Except GetMemoryError MemoryItem :=
  (checkRegistry world userId registry).bind fun _ ↦
  match fetched with
  | none => .error .notFound
  | some raw =>
    match parseMemoryItem world.conv raw with
    | .error error => .error (.unreadable error)
    | .ok none => .error .notFound
    | .ok (some item) =>
      match filterAuthorizedReadItems filterAccessible userId [item] with
      | .error error => .error (.unreadable error)
      | .ok shown => if shown.isEmpty then .error .denied else .ok item

/-! ### Readers -/

variable {conv : Conversions}

/-- A user is let through to what the store has for the memory: in a list, or on its own. -/
inductive ReadBy (conv : Conversions) (memory : NewMemory) (userId : String) : Prop
  | listed (raw : RawMemory) (item : MemoryItem) (items shown : List MemoryItem)
      (filterAccessible : String → List MetaValue → List MetaValue)
      (hstored : raw.metadata = some memory.metadata) (hitem : parseMemoryItem conv raw = .ok (some item))
      (hshown : filterAuthorizedReadItems filterAccessible userId items = .ok shown) (hmem : item ∈ shown)
  | fetched (raw : RawMemory) (item : MemoryItem) (world : MemoryWorld) (registry : Option RegistryRow)
      (filterAccessible : String → List MetaValue → List MetaValue) (hconv : world.conv = conv)
      (hstored : raw.metadata = some memory.metadata)
      (hget : getMemory world filterAccessible userId registry (some raw) = .ok item)

/-- The metadata of an item is what is read of that of its record. -/
theorem readMetadata_of_parse {raw : RawMemory} {item : MemoryItem} {data : Mapping MetaValue}
    (hstored : raw.metadata = some data) (h : parseMemoryItem conv raw = .ok (some item)) :
    readMetadata conv data = .ok item.metadata := by
  rw [parseMemoryItem] at h
  split at h
  · obtain ⟨metadata, hread, hsome⟩ := eq_ok_of_map h
    rw [hstored, Option.getD_some] at hread
    rw [hread, ← Option.some.inj hsome]
  · cases Except.ok.inj h

/-- Who is let through is authorized by what is read of the metadata. -/
theorem ReadBy.authorized {memory : NewMemory} {userId : String} (h : ReadBy conv memory userId) :
    ∃ (item : MemoryItem) (accessible : List MetaValue),
      readMetadata conv memory.metadata = .ok item.metadata ∧
        itemAuthorizedForRead userId accessible item = true := by
  have hof {filterAccessible : String → List MetaValue → List MetaValue} {items shown : List MemoryItem}
      {item : MemoryItem} (hshown : filterAuthorizedReadItems filterAccessible userId items = .ok shown)
      (hmem : item ∈ shown) : ∃ accessible, itemAuthorizedForRead userId accessible item = true := by
    rw [filterAuthorizedReadItems] at hshown
    split at hshown
    · exact nomatch hshown
    · obtain rfl := Except.ok.inj hshown
      exact ⟨_, (List.mem_filter.1 hmem).2⟩
  cases h with
  | listed raw item items shown filterAccessible hstored hitem hshown hmem =>
    obtain ⟨accessible, hauthorized⟩ := hof hshown hmem
    exact ⟨item, accessible, readMetadata_of_parse hstored hitem, hauthorized⟩
  | fetched raw item world registry filterAccessible hconv hstored hget =>
    subst hconv
    obtain ⟨-, -, hget⟩ := eq_ok_of_bind hget
    rcases hparse : parseMemoryItem world.conv raw with error | found
    · simp only [hparse] at hget
      exact nomatch hget
    rcases found with - | found
    · simp only [hparse] at hget
      exact nomatch hget
    rcases hfilter : filterAuthorizedReadItems filterAccessible userId [found] with error | shown
    · simp only [hparse, hfilter] at hget
      exact nomatch hget
    simp only [hparse, hfilter] at hget
    split at hget
    · exact nomatch hget
    · next hsome =>
      obtain rfl := Except.ok.inj hget
      obtain ⟨shownItem, hshown⟩ := List.exists_mem_of_ne_nil shown fun hnil ↦ hsome (by rw [hnil]; rfl)
      have hfound : shownItem = found := by
        rw [filterAuthorizedReadItems] at hfilter
        split at hfilter
        · exact nomatch hfilter
        · obtain rfl := Except.ok.inj hfilter
          exact List.mem_singleton.1 (List.mem_filter.1 hshown).1
      obtain ⟨accessible, hauthorized⟩ := hof hfilter hshown
      exact ⟨found, accessible, readMetadata_of_parse hstored hparse, hfound ▸ hauthorized⟩

/-! ### Isolation -/

/-- A call of `remember`, the instant it is made at and what it is told about projects. -/
structure RememberEvent where
  now : DateTime
  projectAccess : String → String → Bool
  call : RememberCall

variable (conv : Conversions) (containsSecret : String → Bool) (config : MemoryConfig)

/-- What a sequence of calls has handed to the store, each with its call. -/
def handedOver (events : List RememberEvent) : List (RememberCall × NewMemory) :=
  events.filterMap fun event ↦
    match prepare ⟨conv, containsSecret, event.projectAccess⟩ config event.now event.call with
    | .ok (.inr memory) => some (event.call, memory)
    | _ => none

/-- Every memory is attributed to its caller, and read by nobody else. -/
def Isolated (memories : List (RememberCall × NewMemory)) : Prop :=
  ∀ call memory, (call, memory) ∈ memories →
    (∀ m, readMetadata conv memory.metadata = .ok m → m.userId = call.userId) ∧
      ∀ userId, ReadBy conv memory userId → userId = call.userId

/-- The request does not touch the identity: where the stored metadata can be read at all, its dictionary
names no other user, and what comes of it is not an agent memory of global scope. -/
def KeepsIdentity (call : RememberCall) (memory : NewMemory) : Prop :=
  ∀ m, readMetadata conv memory.metadata = .ok m →
    (∀ value, call.metadata.get? "user_id" = some value → value.text conv = call.userId) ∧
      ¬(m.memoryLevel = .agent ∧ m.scope = some .globalAgent)

variable {conv containsSecret config}

/-- The owner, as it is read. -/
theorem userId_of_readMetadata {data : Mapping MetaValue} {m : MemoryMetadata}
    (h : readMetadata conv data = .ok m) :
    m.userId = (MemoryMetadata.getD data "user_id" (.str "")).text conv := by
  rw [readMetadata] at h
  split at h
  · obtain ⟨level, -, rfl⟩ := eq_ok_of_map h
    rfl
  · obtain ⟨_, -, h⟩ := eq_ok_of_bind h
    obtain ⟨_, -, h⟩ := eq_ok_of_bind h
    obtain ⟨_, -, h⟩ := eq_ok_of_bind h
    obtain ⟨_, -, h⟩ := eq_ok_of_bind h
    obtain ⟨_, -, h⟩ := eq_ok_of_bind h
    obtain ⟨_, -, h⟩ := eq_ok_of_bind h
    obtain ⟨_, -, h⟩ := eq_ok_of_bind h
    obtain rfl := Except.ok.inj h
    rfl

/-- It is the one that the request names, or else the caller. -/
theorem userId_of_handedOver {events : List RememberEvent} {call : RememberCall} {memory : NewMemory}
    (hmem : (call, memory) ∈ handedOver conv containsSecret config events) {m : MemoryMetadata}
    (h : readMetadata conv memory.metadata = .ok m) :
    m.userId = ((call.metadata.get? "user_id").map (MetaValue.text conv)).getD call.userId := by
  obtain ⟨event, -, hevent⟩ := List.mem_filterMap.1 hmem
  split at hevent
  · next handed hprepare =>
    obtain ⟨rfl, rfl⟩ := Prod.mk.inj (Option.some.inj hevent)
    obtain ⟨-, -, -, source, confidence, privacy, hmetadata⟩ := prepare_spec hprepare
    rw [userId_of_readMetadata h, MemoryMetadata.getD, hmetadata, Mapping.get?_update,
      MemoryMetadata.get?_toDict rfl]
    rcases event.call.metadata.get? "user_id" with - | value
    · simp [MemoryMetadata.payload, List.lookup_append, List.lookup_cons, callMetadata, MetaValue.text]
    · rfl
  · cases hevent

/-- A request for the user `u1` that names `u2` in its dictionary. -/
def spoofingCall : RememberCall where
  userId := "u1"
  userId_ne := by decide
  agentId := "default"
  content := "the invoices go to the new account"
  memoryLevel := "user"
  metadata := ⟨[("user_id", .str "u2")], List.nodup_singleton _⟩

/-- Memory is on, with the defaults of the settings. -/
def defaultMemoryConfig : MemoryConfig where
  enabled := true
  writeEnabled := true
  auditEnabled := true
  defaultLimit := 10
  minConfidence := 65 / 100
  sessionTtlDays := 30

/-- The call, on the first of January 2026. -/
def spoofingEvent : RememberEvent := ⟨1767225600000000, fun _ _ ↦ true, spoofingCall⟩

end GenericApp
