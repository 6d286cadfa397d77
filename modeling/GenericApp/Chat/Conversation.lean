import GenericApp.Chat.ChatParts
import GenericApp.Rag.EvaluationService

/-!
# The rows of a conversation

A chat turn adds the rows of its user message and of its assistant message, and with the answer those of the sources.
The order in which they have been added is not stored: messages are listed by `created_at` and `id`, sources by `id`,
and ids are random.

The turns are runs of the generators of `ChatService`, here in a world in which the operations write rows
(`conversationWorld`). What the clock shows and which ids are drawn is given with `Draws`. `Conversation.step` runs one
turn after the other, each in a session of its own.
-/

namespace GenericApp

open Py

/-! ### The prompt -/

/-- `build_combined_context` of the block, without memory -/
def documentContext (chunks : List RetrievedChunk) (userQuestion : String) : String :=
  let block := buildDocumentContextBlock chunks
  "\n\n".intercalate
    (((if block = "" then [] else [block]) ++ ["User question:\n" ++ userQuestion]).filter (strip · ≠ ""))

/-! ### Rows -/

inductive ChatRole
  | user
  | assistant
deriving DecidableEq

/-- `ChatMessage`, the model -/
structure ChatMessageRow where
  id : Uuid
  createdAt : DateTime
  role : ChatRole
  documentIds : List String
  message : ChatMessage
deriving DecidableEq

/-- `ChatMessageSource` -/
structure ChatSourceRow where
  id : Uuid
  messageId : Uuid
  source : ChatSource
deriving DecidableEq

/-- The rows of one conversation, in the order in which they have been added. -/
structure ChatRows where
  messages : List ChatMessageRow := []
  sources : List ChatSourceRow := []
deriving DecidableEq

/-! ### Reading -/

/-- `ORDER BY created_at, id` -/
def createdBefore (a b : ChatMessageRow) : Prop := a.createdAt < b.createdAt ∨ a.createdAt = b.createdAt ∧ a.id ≤ b.id

instance : DecidableRel createdBefore := fun a b ↦
  inferInstanceAs (Decidable (a.createdAt < b.createdAt ∨ a.createdAt = b.createdAt ∧ a.id ≤ b.id))

/-- `list_messages` -/
def listMessages (rows : ChatRows) : List ChatMessageRow := rows.messages.insertionSort createdBefore

/-- `list_recent_messages` -/
def listRecentMessages (rows : ChatRows) (limit : ℕ) : List ChatMessageRow :=
  ((rows.messages.insertionSort fun a b ↦ createdBefore b a).take limit).reverse

/-- `list_sources_for_messages` -/
def listSourcesForMessages (rows : ChatRows) (messageIds : List Uuid) : List ChatSourceRow :=
  (rows.sources.filter fun row ↦ row.messageId ∈ messageIds).insertionSort fun a b ↦ a.id ≤ b.id

structure SerializedSource where
  source : ChatSource
  available : Bool

structure SerializedMessage where
  row : ChatMessageRow
  sources : List SerializedSource

/-- `ConversationService.serialize`. `availableDocuments` are those of the given documents that the chat may show. -/
def serialize (availableDocuments : List String → List String) (rows : ChatRows) (messageLimit : Option ℕ) :
    List SerializedMessage :=
  let messages := match messageLimit with
    | some limit => listRecentMessages rows limit
    | none => listMessages rows
  let sources := listSourcesForMessages rows (messages.map ChatMessageRow.id)
  let documentIds := (sources.filterMap fun row ↦ given row.source.documentId).eraseDups
  let availableIds := if documentIds = [] then [] else availableDocuments documentIds
  messages.map fun message ↦
    { row := message
      sources := (sources.filter fun row ↦ row.messageId = message.id).map fun row ↦
        { source := row.source
          available := (given row.source.documentId).all (· ∈ availableIds) } }

/-! ### Writing -/

/-- The ids that are drawn, one after the other, and what the clock shows at each. -/
structure Draws where
  uuid : ℕ → Uuid
  clock : ℕ → DateTime

/-- The rows as the session of the turn holds them and as they are committed, how many ids have been drawn, the
assistant message of the turn, and the contexts that its provider has been asked with. The events that have been read
are kept with these contexts. -/
structure ConversationDb where
  session : ChatRows := {}
  committed : ChatRows := {}
  drawn : ℕ := 0
  assistant : Option Uuid := none
  asked : List String := []
  heard : List (ChatStreamEvent × List String) := []

section World

variable (D : Draws)

/-- `create_message` -/
def createMessage (role : ChatRole) (documentIds : List String) (message : ChatMessage) (s : ConversationDb) :
    ConversationDb :=
  { s with
    session :=
      { s.session with
        messages := s.session.messages ++ [⟨D.uuid s.drawn, D.clock s.drawn, role, documentIds, message⟩] }
    drawn := s.drawn + 1 }

/-- The rows that `create_sources` adds for a message. -/
def sourceRows (messageId : Uuid) (drawn : ℕ) (sources : List ChatSource) : List ChatSourceRow :=
  (sources.zipIdx drawn).map fun (source, i) ↦ ⟨D.uuid i, messageId, source⟩

/-- `create_sources` -/
def createSources (sources : List ChatSource) (s : ConversationDb) : ConversationDb :=
  match s.assistant with
  | none => s
  | some messageId =>
    { s with
      session := { s.session with sources := s.session.sources ++ sourceRows D messageId s.drawn sources }
      drawn := s.drawn + sources.length }

/-- What is assigned to the attributes of the assistant message. -/
def updateAssistant (update : MessageUpdate) (s : ConversationDb) : ConversationDb :=
  { s with
    session :=
      { s.session with
        messages := s.session.messages.map fun row ↦
          if s.assistant = some row.id then { row with message := update.apply row.message } else row } }

def conversationEffect : ChatOp → ConversationDb → ConversationDb
  | .createUserMessage content mode documentIds, s =>
    createMessage D .user documentIds { content := content, mode := mode, status := .completed } s
  | .createAssistantMessage message, s =>
    { createMessage D .assistant [] message s with assistant := some (D.uuid s.drawn) }
  | .createSources sources, s => createSources D sources s
  | .assign update, s => updateAssistant update s
  | .commit, s => { s with committed := s.session }
  | .nextChunk _ context, s | .runRagAnswer _ context, s => { s with asked := s.asked ++ [context] }
  | .listRecentMessages _, s | .listIndexedDocuments _, s | .disconnected, s | .enforceWebSearchLimits, s
  | .enterWebSearchSlot, s | .search _, s | .recallForPrompt _, s | .retrieve _ _, s | .enterProviderSlot, s
  | .closeStream, s | .queueMemoryExtraction _ _, s => s

/-- The world of a generator whose operations write the rows of a conversation. -/
def writingWorld {Y : Type} (spoken : Y → ConversationDb → ConversationDb) :
    World ChatOp Y ChatException ConversationDb where
  effect := conversationEffect D
  raisable op x := chatRaisable op x = true
  spoken := spoken

instance {Y : Type} (spoken : Y → ConversationDb → ConversationDb) (op : ChatOp) (x : ChatException) :
    Decidable ((writingWorld D spoken).raisable op x) :=
  inferInstanceAs (Decidable (chatRaisable op x = true))

/-- An event has been read. -/
def ConversationDb.hear (y : ChatStreamEvent) (s : ConversationDb) : ConversationDb :=
  { s with heard := s.heard ++ [(y, s.asked)] }

abbrev conversationWorld : World ChatOp ChatStreamEvent ChatException ConversationDb :=
  writingWorld D ConversationDb.hear

/-! ### Turns -/

/-- The turn that is running, or has been left, and the rows. -/
structure Conversation where
  turn : ChatRun Unit := .done ()
  db : ConversationDb := {}

inductive ConversationAction
  /-- A request comes, with a session of its own. A turn that has been left does nothing any more. -/
  | begin (conversation : ChatConversation) (payload : ChatMessageRequest) (fuel : ℕ)
  | continue (input : Input ChatOp ChatAns ChatException)

def Conversation.step (P : ChatPorts) (s : Conversation) : ConversationAction → Option Conversation
  | .begin conversation payload fuel =>
    -- the id of the assistant message is the second one that a turn draws
    some
      { turn := streamChatAnswer P conversation payload fuel (toString (D.uuid (s.db.drawn + 1)))
        db := { s.db with session := s.db.committed, assistant := none, asked := [] } }
  | .continue input => ((conversationWorld D).step (s.turn, s.db) input).map fun (turn, db) ↦ ⟨turn, db⟩

/-- The turns of one conversation, one after the other. -/
def conversationTurns (P : ChatPorts) : Machine Conversation ConversationAction where
  init s := s = {}
  step := Conversation.step D P

/-- The events that have been yielded, with the contexts the provider had been asked with. -/
def Conversation.said (s : Conversation) : List (ChatStreamEvent × List String) :=
  match s.turn with
  | .emit y _ => s.db.heard ++ [(y, s.db.asked)]
  | .done _ | .raised _ | .call _ _ => s.db.heard

end World

end GenericApp
