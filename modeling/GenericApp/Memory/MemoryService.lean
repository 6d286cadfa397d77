import GenericApp.Memory.MemoryConsolidator

/-!
# What `remember` hands to the store

`remember` refuses what is switched off, what it cannot parse, what the user may not write and what the
storage policy rejects. Otherwise it builds the metadata from the identity of the caller and from the request,
lays the dictionary that came with the request over it, and hands the result to the store.

`prepare` is the part up to the call of the store. Whether a text contains a secret is a parameter, and so is
who may enter which project; both are asked for a decision and nothing else.
-/

namespace GenericApp

open Py

/-! ### Storage policy -/

/-- `EPHEMERAL_PHRASES` -/
def ephemeralPhrases : List String :=
  ["i'm tired", "i am tired", "feeling sad", "just kidding", "never mind", "nvm"]

/-- `LONG_TERM_TYPES` -/
def longTermTypes : List MemoryType :=
  [.preference, .fact, .goal, .skillLevel, .instruction, .warning, .decision, .projectContext]

/-- What the functions of this module ask others for. -/
structure MemoryWorld where
  conv : Conversions
  /-- `contains_secret` -/
  containsSecret : String → Bool
  /-- `get_project_for_user(project_id, user_id)` finds the project. -/
  projectAccess : String → String → Bool

/-- `is_ephemeral_statement` -/
def isEphemeralStatement (world : MemoryWorld) (content : String) : Bool :=
  ephemeralPhrases.any fun phrase ↦ (find (world.conv.lower (strip content)) phrase 0).isSome

/-- `evaluate_storage_policy`: the confidence to store with, or the reason why not. -/
def evaluateStoragePolicy (world : MemoryWorld) (content : String) (memoryLevel : MemoryLevel)
    (memoryType : MemoryType) (confidence : ℚ) (privacy : MemoryPrivacy) (minConfidence : ℚ) :
    Except String ℚ :=
  if privacy = .doNotStore then .error "privacy_do_not_store"
  else if world.containsSecret content then .error "secret_detected"
  else if isEphemeralStatement world content ∧ memoryLevel ≠ .session then .error "ephemeral_statement"
  else if memoryLevel = .user ∧ ¬longTermTypes.contains memoryType then .error "invalid_user_memory_type"
  else if confidence < minConfidence ∧ [MemoryLevel.user, .agent, .project].contains memoryLevel then
    .error "confidence_below_threshold"
  else if privacy = .sensitive ∧ memoryLevel = .user then .ok (min confidence (3 / 4))
  else .ok confidence

/-! ### Remembering -/

/-- The fields of `MemoryConfig` that are read here. -/
structure MemoryConfig where
  enabled : Bool
  writeEnabled : Bool
  auditEnabled : Bool
  defaultLimit : ℕ
  minConfidence : ℚ
  sessionTtlDays : ℤ

/-- The arguments of `remember`. The user is the authenticated one, whose id is not empty. -/
structure RememberCall where
  userId : String
  userId_ne : userId ≠ ""
  agentId : String
  content : String
  memoryLevel : String
  runId : Option String := none
  projectId : Option String := none
  metadata : Mapping MetaValue := .empty
  memoryType : Option String := none
  source : String := "chat"
  sourceRef : Option String := none
  confidence : ℚ := 4 / 5
  privacy : String := "normal"
  skipPolicy : Bool := false

/-- What `remember` raises. -/
inductive RememberError
  /-- A text that is no member of its enumeration. -/
  | valueError
  /-- 422 `project_id is required for project memory` -/
  | projectRequired
  /-- 403 `Project access denied` -/
  | projectDenied
deriving DecidableEq

/-- `MemoryWriteResult` -/
structure MemoryWriteResult where
  memoryId : String
  memoryLevel : MemoryLevel
  memoryType : MemoryType
  accepted : Bool
  rejectionReason : Option String
deriving DecidableEq

/-- What is handed to the store, and what is known of it. -/
structure NewMemory where
  userId : String
  content : String
  memoryLevel : MemoryLevel
  memoryType : MemoryType
  metadata : Mapping MetaValue

/-- The call of an enumeration with a text. -/
def enumOf {β : Type} (ofValue : String → Option β) (text : String) : Except RememberError β :=
  (ofValue text).elim (.error .valueError) .ok

/-- A memory that is not stored. -/
def rejected (memoryLevel : MemoryLevel) (memoryType : MemoryType) (reason : String) : MemoryWriteResult :=
  ⟨"", memoryLevel, memoryType, false, some reason⟩

/-- A text or `None`, in a dictionary. -/
def MetaValue.ofText : Option String → MetaValue
  | .some text => .str text
  | .none => .none

section Remember

variable (world : MemoryWorld) (config : MemoryConfig) (now : DateTime) (call : RememberCall)

/-- `memory_type or MemoryType.FACT.value` -/
def RememberCall.typeText : String := orStr call.memoryType "fact"

/-- `authorize_write` -/
def authorizeWrite (userId : String) (memoryLevel : MemoryLevel) (projectId : Option String) :
    Except RememberError Unit :=
  if memoryLevel = .project then
    match given projectId with
    | none => .error .projectRequired
    | some project => if world.projectAccess project userId then .ok () else .error .projectDenied
  else .ok ()

/-- The metadata of the caller. -/
def callMetadata (memoryLevel : MemoryLevel) (memoryType : MemoryType) (source : MemorySource)
    (confidence : ℚ) (privacy : MemoryPrivacy) : MemoryMetadata where
  memoryLevel := memoryLevel
  memoryType := memoryType
  userId := call.userId
  agentId := call.agentId
  runId := MetaValue.ofText call.runId
  projectId := MetaValue.ofText call.projectId
  source := source
  sourceRef := MetaValue.ofText call.sourceRef
  confidence := confidence
  createdAt := some now
  lastSeenAt := some now
  privacy := privacy
  expiresAt := if memoryLevel = .session then some (now + timedelta (config.sessionTtlDays * 86400)) else none

/-- The confidence to store with: the policy is asked unless it is to be skipped. -/
def storedConfidence (memoryLevel : MemoryLevel) (memoryType : MemoryType) (privacy : MemoryPrivacy) :
    Except String ℚ :=
  if call.skipPolicy then .ok call.confidence
  else
    (evaluateStoragePolicy world call.content memoryLevel memoryType call.confidence privacy
      config.minConfidence).map fun adjusted ↦ orRat adjusted call.confidence

/-- `remember` up to the call of the store: the result of a memory that is not stored, or what is handed to
the store. -/
def prepare : Except RememberError (MemoryWriteResult ⊕ NewMemory) :=
  (enumOf MemoryLevel.ofValue call.memoryLevel).bind fun memoryLevel ↦
  (enumOf MemoryType.ofValue call.typeText).bind fun memoryType ↦
  if config.enabled = false then .ok (.inl (rejected memoryLevel memoryType "memory_disabled"))
  else if config.writeEnabled = false then
    .ok (.inl (rejected memoryLevel memoryType "memory_write_disabled"))
  else
    (enumOf MemoryPrivacy.ofValue call.privacy).bind fun privacy ↦
    (authorizeWrite world call.userId memoryLevel call.projectId).bind fun _ ↦
    match storedConfidence world config call memoryLevel memoryType privacy with
    | .error reason => .ok (.inl (rejected memoryLevel memoryType reason))
    | .ok confidence =>
      (enumOf MemorySource.ofValue call.source).bind fun source ↦
      .ok (.inr {
        userId := call.userId
        content := call.content
        memoryLevel := memoryLevel
        memoryType := memoryType
        metadata := ((callMetadata config now call memoryLevel memoryType source confidence
          privacy).toDict world.conv).update call.metadata })

end Remember

/-! ### What is handed over -/

variable {world : MemoryWorld} {config : MemoryConfig} {now : DateTime} {call : RememberCall}

/-- **What is handed to the store** is the metadata of the caller under that of the request. -/
theorem prepare_spec {memory : NewMemory} (h : prepare world config now call = .ok (.inr memory)) :
    memory.userId = call.userId ∧ memory.content = call.content ∧
      MemoryLevel.ofValue call.memoryLevel = some memory.memoryLevel ∧
        ∃ source confidence privacy, memory.metadata = ((callMetadata config now call memory.memoryLevel
          memory.memoryType source confidence privacy).toDict world.conv).update call.metadata := by
  have helim {β : Type} {ofValue : String → Option β} {text : String} {b : β}
      (h : enumOf ofValue text = .ok b) : ofValue text = some b := by
    rw [enumOf] at h
    rcases hvalue : ofValue text with - | found
    · rw [hvalue] at h
      exact nomatch h
    · rw [hvalue] at h
      exact congrArg some (Except.ok.inj h)
  obtain ⟨memoryLevel, hlevel, h⟩ := eq_ok_of_bind h
  obtain ⟨memoryType, -, h⟩ := eq_ok_of_bind h
  split at h
  · exact nomatch Except.ok.inj h
  · split at h
    · exact nomatch Except.ok.inj h
    · obtain ⟨privacy, -, h⟩ := eq_ok_of_bind h
      obtain ⟨-, -, h⟩ := eq_ok_of_bind h
      split at h
      · exact nomatch Except.ok.inj h
      · next confidence _ =>
        obtain ⟨source, -, h⟩ := eq_ok_of_bind h
        obtain rfl := Sum.inr.inj (Except.ok.inj h)
        exact ⟨rfl, rfl, helim hlevel, source, confidence, privacy, rfl⟩

/-- What is not handed over is not accepted. -/
theorem not_accepted_of_prepare {result : MemoryWriteResult}
    (h : prepare world config now call = .ok (.inl result)) : result.accepted = false := by
  obtain ⟨memoryLevel, -, h⟩ := eq_ok_of_bind h
  obtain ⟨memoryType, -, h⟩ := eq_ok_of_bind h
  split at h
  · exact Sum.inl.inj (Except.ok.inj h) ▸ rfl
  · split at h
    · exact Sum.inl.inj (Except.ok.inj h) ▸ rfl
    · obtain ⟨privacy, -, h⟩ := eq_ok_of_bind h
      obtain ⟨-, -, h⟩ := eq_ok_of_bind h
      split at h
      · exact Sum.inl.inj (Except.ok.inj h) ▸ rfl
      · obtain ⟨source, -, h⟩ := eq_ok_of_bind h
        exact nomatch Except.ok.inj h

end GenericApp
