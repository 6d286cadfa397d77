import GenericApp.Foundation.Coroutine
import GenericApp.Rag.RetrievalService

/-!
# Chat messages and what is awaited for them

A chat request writes a user message and an assistant message, the second one `generating`, and commits both. From
then on the request owes the assistant message an end: an answer, an error code, or the note that it was cancelled.

The state of a request (`ChatDb`) is the row of its assistant message as the session holds it and as it was last
committed. What the service awaits are the operations `ChatOp`. An operation may come back with an exception, and a
commit that does may have been carried out all the same. What the service computes between two operations is
computed without interruption; should it raise, that is as if the next operation had raised.
-/

namespace GenericApp

open Py

/-! ### Conversations, requests and routes -/

/-- `ChatMode` -/
inductive ChatMode
  | auto
  | documents
  | general
  | web
deriving DecidableEq

/-- What a request needs of its conversation. -/
structure ChatConversation where
  id : String
  projectId : Option String
  mode : ChatMode
  memoryEnabled : Bool
  memoryWriteEnabled : Bool

/-- `ChatMessageRequest` -/
structure ChatMessageRequest where
  content : String
  mode : ChatMode := .auto
  conversationId : Option String := none
  projectId : Option String := none
  documentIds : List String := []
  memoryEnabled : Option Bool := none
  memoryWriteEnabled : Option Bool := none
  useMemory : Option Bool := none
  writeMemory : Option Bool := none

/-- `ChatRouteDecision` -/
structure ChatRouteDecision where
  mode : ChatMode
  reason : String
  confidence : String := "high"
  useDocuments : Bool := false
  useMemory : Bool := false
  useWeb : Bool := false
  searchQuery : Option String := none

/-- `requested_memory_enabled` -/
def requestedMemoryEnabled (conversation : ChatConversation) (payload : ChatMessageRequest) : Bool :=
  match payload.memoryEnabled with
  | some enabled => enabled
  | none => payload.useMemory.getD conversation.memoryEnabled

/-- `requested_memory_write_enabled` -/
def requestedMemoryWriteEnabled (conversation : ChatConversation) (payload : ChatMessageRequest) : Bool :=
  match payload.memoryWriteEnabled with
  | some enabled => enabled
  | none => payload.writeMemory.getD conversation.memoryWriteEnabled

/-! ### Exceptions -/

/-- An `HTTPException`. One that is a `StructuredApiError` has a code and a message of its own. -/
structure ApiError where
  statusCode : ℕ
  code : Option String
  message : Option String
deriving DecidableEq

/-- What is raised, as far as a handler tells it apart. -/
inductive ChatException
  /-- `asyncio.CancelledError` -/
  | cancelled
  | http (error : ApiError)
  /-- `TimeoutError` -/
  | timeout
  /-- `SearchProviderError` -/
  | searchProvider
  /-- Any other `Exception`. -/
  | other
  /-- What no handler names: `GeneratorExit`, `KeyboardInterrupt`, `SystemExit`. -/
  | exit
deriving DecidableEq

/-- `isinstance(exc, Exception)` -/
def ChatException.isException : ChatException → Bool
  | .cancelled | .exit => false
  | .http _ | .timeout | .searchProvider | .other => true

/-- `StructuredApiError(status_code=.., code=.., message=..)` -/
def structuredApiError (statusCode : ℕ) (code message : String) : ChatException :=
  .http ⟨statusCode, some code, some message⟩

/-! ### Messages and sources -/

inductive ChatMessageStatus
  | generating
  | completed
  | failed
  | cancelled
deriving DecidableEq

/-- The columns of an assistant message that a request writes. -/
structure ChatMessage where
  content : String
  mode : ChatMode
  status : ChatMessageStatus
  modelName : Option String := none
  aiRunId : Option String := none
  inputTokens : Option ℕ := none
  outputTokens : Option ℕ := none
  errorCode : Option String := none
  routeReason : Option String := none
  routeConfidence : Option String := none
deriving DecidableEq

inductive ChatSourceKind
  | document
  | web
  | memory
deriving DecidableEq

/-- `ChatSource` -/
structure ChatSource where
  sourceId : String
  kind : ChatSourceKind
  title : String
  documentId : Option String := none
  chunkId : Option String := none
  url : Option String := none
  snippet : Option String := none
  score : Option ℚ := none
  pageNumber : Option ℤ := none
  chunkIndex : Option ℕ := none
  rank : Option ℕ := none
  publishedAt : Option String := none
deriving DecidableEq

/-- `SearchResult` -/
structure SearchResult where
  providerId : String
  title : String
  url : String
  snippet : String
  publishedAt : Option String
  rank : ℕ

/-- What the generation port says of an answer. -/
structure GenerationResult where
  id : String
  modelName : String
  outputText : Option String
  inputTokens : Option ℕ
  outputTokens : Option ℕ

/-- `RagGenerationChunk` -/
structure RagGenerationChunk where
  text : String := ""
  result : Option GenerationResult := none

/-- `source_from_chunk` -/
def sourceFromChunk (chunk : RetrievedChunk) : ChatSource where
  sourceId := toString chunk.chunkId
  kind := .document
  title := chunk.filename
  documentId := some (toString chunk.documentId)
  chunkId := some (toString chunk.chunkId)
  snippet := some (slice 2000 chunk.content)
  score := some chunk.score
  pageNumber := chunk.pageNumber
  chunkIndex := some chunk.chunkIndex

/-- `source_from_search_result` -/
def sourceFromSearchResult (result : SearchResult) : ChatSource where
  sourceId := "web:" ++ result.providerId
  kind := .web
  title := result.title
  url := some result.url
  snippet := some result.snippet
  score := some (roundTo 4 (1 / (max result.rank 1 : ℕ)))
  rank := some result.rank
  publishedAt := result.publishedAt

/-- `source_from_memory_item` -/
def sourceFromMemoryItem (itemId : String) : ChatSource where
  sourceId := "memory:" ++ itemId
  kind := .memory
  title := "Saved memory"

/-! ### Events -/

inductive ChatStatus
  | queued
  | retrieving
  | generating
  | completed
deriving DecidableEq

/-- `ChatStreamEvent` -/
inductive ChatStreamEvent
  | status (status : ChatStatus)
  | source (source : ChatSource)
  | token (token : String)
  | final (messageId : String) (answer : String) (sources : List ChatSource)
  | error (code message : String) (retryable : Bool)
  | cancelled (message : String)
deriving DecidableEq

/-- The events that end a stream. -/
def ChatStreamEvent.isTerminal : ChatStreamEvent → Bool
  | .final .. | .error .. => true
  | .status _ | .source _ | .token _ | .cancelled _ => false

/-! ### Operations -/

/-- The attributes that are set on the assistant message in the session, without a statement being sent. -/
structure MessageUpdate where
  apply : ChatMessage → ChatMessage

/-- What `asyncio.wait_for(iterator.__anext__(), remaining)` comes back with, or that nothing remained. -/
inductive NextChunk
  | expired
  | stop
  | chunk (chunk : RagGenerationChunk)

/-- `recall_for_prompt`: the context, the ids of the items, and whether the recall was degraded. -/
structure MemoryRecall where
  context : String
  itemIds : List String
  degraded : Bool

/-- What a chat request awaits. The last two are called and not awaited. -/
inductive ChatOp
  | listRecentMessages (limit : ℕ)
  | listIndexedDocuments (documentIds : List String)
  | createUserMessage (content : String) (mode : ChatMode) (documentIds : List String)
  | createAssistantMessage (message : ChatMessage)
  | createSources (sources : List ChatSource)
  | commit
  | disconnected
  | enforceWebSearchLimits
  | enterWebSearchSlot
  | search (query : String)
  | recallForPrompt (query : String)
  | retrieve (query : String) (documentIds : List String)
  | enterProviderSlot
  | nextChunk (query combinedContext : String)
  | closeStream
  | runRagAnswer (query combinedContext : String)
  | assign (update : MessageUpdate)
  | queueMemoryExtraction (userMessage assistantMessage : String)

def ChatOp.isCommit : ChatOp → Bool
  | .commit => true
  | _ => false

/-- The turns of a conversation that are listed: who spoke, the content, and whether the message is completed. -/
abbrev HistoryTurn := Bool × String × Bool

/-- What the operations come back with. -/
@[reducible]
def ChatAns : ChatOp → Type
  | .listRecentMessages _ => List HistoryTurn
  | .listIndexedDocuments _ => List String
  | .disconnected => Bool
  | .search _ => List SearchResult
  | .recallForPrompt _ => MemoryRecall
  | .retrieve _ _ => RetrievalOutcome
  | .nextChunk _ _ => NextChunk
  | .runRagAnswer _ _ => GenerationResult
  | .createUserMessage .. | .createAssistantMessage _ | .createSources _ | .commit
  | .enforceWebSearchLimits | .enterWebSearchSlot | .enterProviderSlot | .closeStream | .assign _
  | .queueMemoryExtraction _ _ => Unit

/-- What a chat request does to the rows of its assistant message, and whether it has said its last word. -/
structure ChatDb where
  /-- The message as the session holds it. -/
  assistant : Option ChatMessage
  /-- The message as it was last committed. -/
  committed : Option ChatMessage
  /-- A terminal event has been read. -/
  ended : Bool

def chatEffect : ChatOp → ChatDb → ChatDb
  | .createAssistantMessage message, s => { s with assistant := some message }
  | .assign update, s => { s with assistant := s.assistant.map update.apply }
  | .commit, s => { s with committed := s.assistant }
  | _, s => s

/-- What is not awaited cannot be cancelled, and setting attributes cannot fail. -/
def chatRaisable : ChatOp → ChatException → Bool
  | .assign _, _ => false
  | .queueMemoryExtraction _ _, x => x.isException
  | _, _ => true

/-- The world of a generator that serves a chat request. -/
def answeringWorld {Y : Type} (spoken : Y → ChatDb → ChatDb) : World ChatOp Y ChatException ChatDb where
  effect := chatEffect
  raisable op x := chatRaisable op x = true
  spoken := spoken

instance {Y : Type} (spoken : Y → ChatDb → ChatDb) (op : ChatOp) (x : ChatException) :
    Decidable ((answeringWorld spoken).raisable op x) :=
  inferInstanceAs (Decidable (chatRaisable op x = true))

/-- That an event is read is noted if it is a terminal one. -/
def hear (y : ChatStreamEvent) (s : ChatDb) : ChatDb := { s with ended := s.ended || y.isTerminal }

abbrev chatWorld : World ChatOp ChatStreamEvent ChatException ChatDb := answeringWorld hear

/-- A part of a generator that yields `Y` while it serves a chat request. -/
abbrev Answering (Y α : Type) := Coroutine ChatOp ChatAns Y ChatException α

/-- A part of the generator of the events. -/
abbrev ChatRun (α : Type) := Answering ChatStreamEvent α

def callChat {Y : Type} (op : ChatOp) : Answering Y (ChatAns op) := Coroutine.await op

def raiseChat {Y α : Type} (x : ChatException) : Answering Y α := .raised x

/-- Before the request. -/
def ChatDb.empty : ChatDb := ⟨none, none, false⟩

/-! ### Writing the messages -/

/-- `_create_pending_messages`. `touch_conversation` awaits nothing. -/
def createPendingMessages (payload : ChatMessageRequest) (mode : ChatMode) : ChatRun Unit := do
  callChat (.createUserMessage payload.content mode
    (if mode = .documents then payload.documentIds.eraseDups else []))
  callChat (.createAssistantMessage ⟨"", mode, .generating, none, none, none, none, none, none, none⟩)
  callChat .commit

/-- What `_complete_message` sets on the message. -/
def completedUpdate (answer modelName : String) (generation : Option GenerationResult)
    (route : Option ChatRouteDecision) : MessageUpdate where
  apply message :=
    { message with
      content := answer
      status := .completed
      modelName := some modelName
      aiRunId := generation.map GenerationResult.id
      inputTokens := generation.bind GenerationResult.inputTokens
      outputTokens := generation.bind GenerationResult.outputTokens
      errorCode := none
      routeReason := (route.map ChatRouteDecision.reason).or message.routeReason
      routeConfidence := (route.map ChatRouteDecision.confidence).or message.routeConfidence }

/-- `_complete_message` -/
def completeMessage (answer modelName : String) (generation : Option GenerationResult)
    (sources : List ChatSource) (route : Option ChatRouteDecision) : ChatRun Unit := do
  callChat (.assign (completedUpdate answer modelName generation route))
  (callChat (.createSources sources)).when (sources ≠ [])
  callChat .commit

/-- `_mark_message` -/
def markMessage (status : ChatMessageStatus) (errorCode : String) : ChatRun Unit := do
  callChat (.assign ⟨fun message ↦
    { message with status := status, content := "", errorCode := some errorCode }⟩)
  callChat .commit

end GenericApp
