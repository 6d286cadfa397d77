import GenericApp.Chat.ChatService

/-!
# What comes before an answer

Before the answer is committed, a chat request polls its client, searches, retrieves, recalls and lets the provider
generate. None of this writes to the assistant message or says a last word. So what these parts keep is settled by
what the single operations and the single events keep: `PartRules` is a contract with an invariant for which these
do, and the lemmas below say so of the parts.
-/

namespace GenericApp

open Py

/-- An operation that does not write to the assistant message. -/
def ChatOp.Apart (op : ChatOp) : Prop := op.isCommit = false ∧ ∀ s, chatEffect op s = s

/-- The operations that ask for something and write nothing, but for those that ask the provider. -/
def ChatOp.asks : ChatOp → Bool
  | .listRecentMessages _ | .listIndexedDocuments _ | .disconnected | .enforceWebSearchLimits
  | .enterWebSearchSlot | .search _ | .recallForPrompt _ | .retrieve _ _ | .enterProviderSlot | .closeStream => true
  | .createUserMessage .. | .createAssistantMessage _ | .createSources _ | .commit | .nextChunk _ _
  | .runRagAnswer _ _ | .assign _ | .queueMemoryExtraction _ _ => false

/-- An operation that asks the provider for an answer from this context. -/
def ChatOp.Prompts (context : String) (op : ChatOp) : Prop :=
  ∃ query, op = .nextChunk query context ∨ op = .runRagAnswer query context

theorem apart_of_asks {op : ChatOp} (h : op.asks = true) : op.Apart := by
  cases op with
  | createUserMessage | createAssistantMessage | createSources | commit | nextChunk | runRagAnswer | assign
  | queueMemoryExtraction => exact nomatch h
  | _ => exact ⟨rfl, fun _ ↦ rfl⟩

theorem apart_of_prompts {op : ChatOp} {context : String} (h : op.Prompts context) : op.Apart := by
  obtain ⟨query, rfl | rfl⟩ := h
  · exact ⟨rfl, fun _ ↦ rfl⟩
  · exact ⟨rfl, fun _ ↦ rfl⟩

/-- The provider's chunks are heard by the generator of the events, and by nobody else. -/
abbrev chunkWorld : World ChatOp RagGenerationChunk ChatException ChatDb := answeringWorld fun _ s ↦ s

/-- An invariant that no operation that asks breaks, in the world `W` and under the contract `K`. -/
structure AskRules {Y σ : Type} (W : World ChatOp Y ChatException σ) (K : Contract ChatOp Y ChatException σ)
    (I : σ → Prop) (E : ChatException → Prop) : Prop where
  raise : ∀ x, x ≠ .exit → E x
  call : ∀ op : ChatOp, op.asks = true → Keeps W K I E (callChat op)

/-- Nor does any event but a terminal one, in the world of the generator of the events; the world `V` and the
contract `L` are those of the generator of the chunks. -/
structure PartRules {σ : Type} (W : World ChatOp ChatStreamEvent ChatException σ)
    (V : World ChatOp RagGenerationChunk ChatException σ) (K : Contract ChatOp ChatStreamEvent ChatException σ)
    (L : Contract ChatOp RagGenerationChunk ChatException σ) (I : σ → Prop) (E : ChatException → Prop) : Prop
    extends AskRules W K I E where
  say : ∀ y : ChatStreamEvent, y.isTerminal = false → Keeps W K I E (Coroutine.yieldOne y : ChatRun Unit)
  chunkCall : ∀ op : ChatOp, op.asks = true → Keeps V L I E (callChat op)
  chunkSay : ∀ z, Keeps V L I E (Coroutine.yieldOne z : ChunkRun Unit)
  iterated : K.Iterated W L V
  said : ∀ z s, L.said z s → I s
  rely : ∀ z s u, I u → L.rely z s u

theorem sources_notTerminal {sources : List ChatSource} :
    ∀ y ∈ sources.map ChatStreamEvent.source, y.isTerminal = false := by
  intro y hy
  obtain ⟨source, -, rfl⟩ := List.mem_map.1 hy
  rfl

/-! ### Parts that say nothing -/

namespace AskRules

variable {Y σ : Type} {I : σ → Prop} {E : ChatException → Prop}
variable (P : ChatPorts) (conversation : ChatConversation) (payload : ChatMessageRequest)

section Any

variable {W : World ChatOp Y ChatException σ} {K : Contract ChatOp Y ChatException σ} (R : AskRules W K I E)
include R

theorem apiError {α : Type} (statusCode : ℕ) (code message : String) :
    Keeps W K I E (raiseChat (structuredApiError statusCode code message) : Answering Y α) :=
  .raise (R.raise _ nofun)

theorem cancelIfDisconnected : Keeps W K I E (cancelIfDisconnected P : Answering Y Unit) := by
  refine .bind ?_ fun disconnected ↦ Keeps.when (.raise (R.raise .cancelled nofun)) _
  rw [isDisconnected]
  split
  · exact R.call _ rfl
  · exact .pure false

end Any

section Chunks

variable {W : World ChatOp RagGenerationChunk ChatException σ}
variable {K : Contract ChatOp RagGenerationChunk ChatException σ} (R : AskRules W K I E)
include R

theorem onProviderTimeout {α : Type} {x : ChatException} (hx : E x) :
    Keeps W K I E (onProviderTimeout x : ChunkRun α) := by
  cases x with
  | timeout => exact R.apiError _ _ _
  | _ => exact .raise hx

/-- The induction is on how long the provider may go on. -/
theorem streamChunks (query : String) {combinedContext : String}
    (hprompt : ∀ op : ChatOp, op.Prompts combinedContext → Keeps W K I E (callChat op))
    (hsay : ∀ z, Keeps W K I E (Coroutine.yieldOne z : ChunkRun Unit)) (fuel : ℕ) :
    Keeps W K I E (streamChunks P query combinedContext fuel) := by
  induction fuel with
  | zero => exact R.apiError _ _ _
  | succ fuel ih =>
    refine .bind (R.cancelIfDisconnected P) fun _ ↦ ?_
    refine .bind (.tryCatch (hprompt _ ⟨query, .inl rfl⟩) fun _ hx ↦ R.onProviderTimeout hx) fun next ↦ ?_
    cases next with
    | expired => exact R.apiError _ _ _
    | stop => exact .pure ()
    | chunk chunk => exact .bind (hsay chunk) fun _ ↦ ih

theorem runChunks (query : String) {combinedContext : String}
    (hprompt : ∀ op : ChatOp, op.Prompts combinedContext → Keeps W K I E (callChat op))
    (hsay : ∀ z, Keeps W K I E (Coroutine.yieldOne z : ChunkRun Unit)) :
    Keeps W K I E (runChunks query combinedContext) := by
  refine .bind (.tryCatch (hprompt _ ⟨query, .inr rfl⟩) fun _ hx ↦ R.onProviderTimeout hx)
    fun generation ↦ ?_
  exact .bind ((hsay _).when _) fun _ ↦ hsay _

theorem generationEvents (fuel : ℕ) (query : String) {combinedContext : String}
    (hprompt : ∀ op : ChatOp, op.Prompts combinedContext → Keeps W K I E (callChat op))
    (hsay : ∀ z, Keeps W K I E (Coroutine.yieldOne z : ChunkRun Unit)) :
    Keeps W K I E (generationEvents P fuel query combinedContext) := by
  refine .tryCatch (.bind (R.call _ rfl) fun _ ↦ ?_) fun x hx ↦ ?_
  · split
    · exact .tryFinally (R.streamChunks P query hprompt hsay fuel) (R.call _ rfl)
    · exact R.runChunks query hprompt hsay
  · cases x with
    | timeout => exact R.apiError _ _ _
    | _ => exact .raise hx

end Chunks

section Events

variable {W : World ChatOp ChatStreamEvent ChatException σ} {K : Contract ChatOp ChatStreamEvent ChatException σ}
variable (R : AskRules W K I E)
include R

theorem retrieveChunks (selectedDocumentIds : List String) :
    Keeps W K I E (retrieveChunks payload selectedDocumentIds) := by
  rw [GenericApp.retrieveChunks]
  split
  · exact .pure []
  · exact .bind (R.call _ rfl) fun _ ↦ .pure _

theorem recallMemory (route : ChatRouteDecision) : Keeps W K I E (recallMemory payload route) := by
  rw [GenericApp.recallMemory]
  split
  · exact R.call _ rfl
  · exact .pure _

theorem searchWeb (route : ChatRouteDecision) :
    Keeps W K I E (searchWeb conversation payload route) := by
  refine .tryCatch (.bind (R.call _ rfl) fun _ ↦ .bind (.tryCatch ?_ ?_) fun _ ↦ .pure _) ?_
  · exact .bind (R.call _ rfl) fun _ ↦ R.call _ rfl
  · intro x hx
    cases x with
    | timeout => exact .raise (R.raise _ nofun)
    | _ => exact .raise hx
  · intro x hx
    cases x with
    | searchProvider =>
      dsimp only
      split
      · exact .pure _
      · exact R.apiError _ _ _
    | _ => exact .raise hx

end Events

end AskRules

/-! ### Parts that speak -/

namespace PartRules

variable {σ : Type} {W : World ChatOp ChatStreamEvent ChatException σ}
variable {V : World ChatOp RagGenerationChunk ChatException σ}
variable {K : Contract ChatOp ChatStreamEvent ChatException σ}
variable {L : Contract ChatOp RagGenerationChunk ChatException σ} {I : σ → Prop}
variable {E : ChatException → Prop} (R : PartRules W V K L I E)
variable (P : ChatPorts) (payload : ChatMessageRequest)
include R

/-- The same for the generator of the chunks. -/
theorem chunks : AskRules V L I E := ⟨R.raise, R.chunkCall⟩

theorem sayAll {ys : List ChatStreamEvent} (hys : ∀ y ∈ ys, y.isTerminal = false) :
    Keeps W K I E (Coroutine.yieldAll ys : ChatRun Unit) :=
  .yieldAll fun y hy ↦ R.say y (hys y hy)

theorem collectChunk (collected : Collected) (chunk : RagGenerationChunk) :
    Keeps W K I E (collectChunk collected chunk) := by
  rw [GenericApp.collectChunk]
  split
  · exact .pure _
  · refine .bind (R.sayAll fun y hy ↦ ?_) fun _ ↦ .pure _
    obtain ⟨token, -, rfl⟩ := List.mem_map.1 hy
    rfl

theorem generateAnswer (fuel : ℕ) {combinedContext : String} {validate : String → ChatRun Unit}
    (hprompt : ∀ op : ChatOp, op.Prompts combinedContext → Keeps V L I E (callChat op))
    (hvalidate : ∀ answer, Keeps W K I E (validate answer)) :
    Keeps W K I E (generateAnswer P payload fuel combinedContext validate) := by
  have hcollect : Keeps W K I E
      ((GenericApp.generationEvents P fuel payload.content combinedContext).foldEach GenericApp.collectChunk {}) :=
    .foldEach R.iterated R.said R.rely {} R.collectChunk (R.chunks.generationEvents P fuel payload.content hprompt R.chunkSay)
  refine .bind hcollect fun collected ↦ .bind ((R.apiError _ _ _).when _) fun _ ↦
    .bind (hvalidate _) fun _ ↦ ?_
  cases collected.generation with
  | none => exact R.apiError _ _ _
  | some generation => exact .pure _

end PartRules

end GenericApp
