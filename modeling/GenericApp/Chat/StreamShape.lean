import GenericApp.Chat.ChatParts

/-!
# The last word of a chat generator

The events of a chat generator end with its last word, the final event or an error: it yields nothing after it, it
does not return without it, and when it raises it has not said it. This holds whatever the awaited calls raise, as
long as the generator is resumed for its next event and for nothing else.
-/

namespace GenericApp

open Py

/-- The contract of a generator that is read: any call may raise, and nothing is yielded after the last word. -/
def speaking : Contract ChatOp ChatStreamEvent ChatException ChatDb where
  raises _ _ _ _ := True
  throws _ _ _ := False
  guarantee _ _ := True
  said _ s := s.ended = false
  rely y s t := t = hear y s

/-- The same before the last word. -/
def beforeLastWord : Contract ChatOp ChatStreamEvent ChatException ChatDb :=
  { speaking with
    said := fun y s ↦ s.ended = false ∧ y.isTerminal = false
    rely := fun _ _ t ↦ t.ended = false }

/-- And of the generator of the chunks, which never says it. -/
def withoutLastWord : Contract ChatOp RagGenerationChunk ChatException ChatDb where
  raises _ _ _ _ := True
  throws _ _ _ := False
  guarantee _ _ := True
  said _ s := s.ended = false
  rely _ _ t := t.ended = false

/-- The last word has been said by a generator that returns, and by no other. -/
def LastWord {α : Type} (said : α → Bool) : Except ChatException α → ChatDb → Prop
  | .ok a, s => s.ended = said a
  | .error _, s => s.ended = false

theorem ended_chatEffect (op : ChatOp) (s : ChatDb) : (chatEffect op s).ended = s.ended := by
  cases op with
  | _ => rfl

theorem keeps_call_ended {Y : Type} {spoken : Y → ChatDb → ChatDb} {K : Contract ChatOp Y ChatException ChatDb}
    (hK : ∀ s t, K.guarantee s t) (op : ChatOp) :
    Keeps (answeringWorld spoken) K (fun s ↦ s.ended = false) (fun _ ↦ True)
      (callChat op : Answering Y (ChatAns op)) := by
  have heffect : ∀ s : ChatDb, s.ended = false → (chatEffect op s).ended = false :=
    fun s hs ↦ (ended_chatEffect op s).trans hs
  refine .await (fun s hs ↦ ⟨hK _ _, heffect s hs⟩) fun s x late hs _ _ ↦ ⟨hK _ _, ?_, trivial⟩
  cases late with
  | false => exact hs
  | true => exact heffect s hs

/-- What comes before the last word does not say it. -/
theorem lastWordRules :
    PartRules chatWorld chunkWorld beforeLastWord withoutLastWord (fun s ↦ s.ended = false) (fun _ ↦ True) where
  raise _ _ := trivial
  call op _ := keeps_call_ended (fun _ _ ↦ trivial) op
  say _ hy := .yieldOne (fun _ hs ↦ ⟨hs, hy⟩) (fun _ _ _ ht ↦ ht) fun _ _ _ hx ↦ hx.elim
  chunkCall op _ := keeps_call_ended (fun _ _ ↦ trivial) op
  chunkSay _ := .yieldOne (fun _ hs ↦ hs) (fun _ _ _ ht ↦ ht) fun _ _ _ hx ↦ hx.elim
  iterated := ⟨rfl, rfl, rfl, rfl⟩
  said _ _ hs := hs
  rely _ _ _ hu := hu

/-- A part that does not say the last word. -/
abbrev LeavesLastWord {α : Type} (t : ChatRun α) : Prop :=
  Keeps chatWorld beforeLastWord (fun s ↦ s.ended = false) (fun _ ↦ True) t

section Sequence

variable {α β : Type} {Q : Except ChatException α → ChatDb → Prop} {s : ChatDb}

theorem leaves_call (op : ChatOp) : LeavesLastWord (callChat op) := keeps_call_ended (fun _ _ ↦ trivial) op

/-- Until the generator is resumed after an event that is not the last, the last word has not been said. -/
theorem LeavesLastWord.speaking {t : ChatRun α} (ht : LeavesLastWord t) (hs : s.ended = false) :
    Safe chatWorld speaking (fun _ u ↦ u.ended = false) t s := by
  have hweak : Safe chatWorld GenericApp.speaking (KeptAtEnd (fun s ↦ s.ended = false) fun _ ↦ True) t s := by
    refine Safe.weaken (K := beforeLastWord) (fun _ _ h ↦ h.1) ?_ (ht s hs)
    rintro y u v ⟨hu, hy⟩ rfl
    change (u.ended || y.isTerminal) = false
    rw [hu, hy]
    rfl
  refine Safe.mono ?_ hweak
  rintro (x | a) u hu
  · exact hu.1
  · exact hu

theorem leaves_bind {t : ChatRun β} {f : β → ChatRun α} (ht : LeavesLastWord t) (hs : s.ended = false)
    (herror : ∀ x u, u.ended = false → Q (.error x) u)
    (hf : ∀ b u, u.ended = false → Safe chatWorld speaking Q (f b) u) :
    Safe chatWorld speaking Q (t >>= f) s := by
  refine Safe.bind (Safe.mono ?_ (ht.speaking hs))
  rintro (x | b) u hu
  · exact herror x u hu
  · exact hf b u hu

/-- The last word. -/
theorem safe_lastWord {y : ChatStreamEvent} (hy : y.isTerminal = true) (hs : s.ended = false) :
    Safe chatWorld speaking (LastWord fun _ ↦ true) (Coroutine.yieldOne y : ChatRun Unit) s := by
  refine Safe.yieldOne hs ?_
  rintro t rfl
  refine ⟨?_, fun _ hx ↦ hx.elim⟩
  change (s.ended || y.isTerminal) = true
  rw [hy, Bool.or_true]

end Sequence

/-! ### Writing the messages -/

theorem leaves_createPendingMessages (payload : ChatMessageRequest) (mode : ChatMode) :
    LeavesLastWord (createPendingMessages payload mode) :=
  .bind (leaves_call _) fun _ ↦ .bind (leaves_call _) fun _ ↦ leaves_call _

theorem leaves_completeMessage (answer modelName : String) (generation : Option GenerationResult)
    (sources : List ChatSource) (route : Option ChatRouteDecision) :
    LeavesLastWord (completeMessage answer modelName generation sources route) :=
  .bind (leaves_call _) fun _ ↦ .bind ((leaves_call _).when _) fun _ ↦ leaves_call _

theorem leaves_markMessage (status : ChatMessageStatus) (errorCode : String) :
    LeavesLastWord (markMessage status errorCode) :=
  .bind (leaves_call _) fun _ ↦ leaves_call _

theorem leaves_queueExtraction (payload : ChatMessageRequest) (answer : String) :
    LeavesLastWord (queueExtraction payload answer) := by
  refine .tryCatch (leaves_call _) fun x _ ↦ ?_
  split
  · exact .pure ()
  · exact .raise trivial

/-! ### The two generators -/

section Answers

variable (P : ChatPorts) (conversation : ChatConversation) (payload : ChatMessageRequest)
variable {s : ChatDb} (hs : s.ended = false)
include hs

theorem lastWord_documentAnswer (fuel : ℕ) (messageId : String) (selectedDocumentIds : List String)
    (route : ChatRouteDecision) :
    Safe chatWorld speaking (LastWord fun _ ↦ true)
      (documentAnswer P payload fuel messageId selectedDocumentIds route) s := by
  have herror : ∀ x u, ChatDb.ended u = false → LastWord (fun _ : Unit ↦ true) (.error x) u := fun _ _ hu ↦ hu
  rw [documentAnswer]
  refine leaves_bind (lastWordRules.say _ rfl) hs herror fun _ s hs ↦ ?_
  refine leaves_bind (lastWordRules.cancelIfDisconnected P) hs herror fun _ s hs ↦ ?_
  refine leaves_bind (lastWordRules.say _ rfl) hs herror fun _ s hs ↦ ?_
  refine leaves_bind (lastWordRules.retrieveChunks payload selectedDocumentIds) hs herror fun retrieved s hs ↦ ?_
  dsimp only
  split
  · refine leaves_bind (leaves_completeMessage _ _ _ _ _) hs herror fun _ s hs ↦ ?_
    exact safe_lastWord rfl hs
  · refine leaves_bind (lastWordRules.sayAll sources_notTerminal) hs herror fun _ s hs ↦ ?_
    refine leaves_bind (lastWordRules.say _ rfl) hs herror fun _ s hs ↦ ?_
    refine leaves_bind (lastWordRules.cancelIfDisconnected P) hs herror fun _ s hs ↦ ?_
    refine leaves_bind (lastWordRules.generateAnswer P payload fuel (fun op _ ↦ keeps_call_ended (fun _ _ ↦ trivial) op) fun answer ↦ ?_) hs herror
      fun generated s hs ↦ ?_
    · split
      · exact .pure ()
      · exact lastWordRules.apiError _ _ _
    · refine leaves_bind (leaves_completeMessage _ _ _ _ _) hs herror fun _ s hs ↦ ?_
      refine leaves_bind (lastWordRules.say _ rfl) hs herror fun _ s hs ↦ ?_
      exact safe_lastWord rfl hs

/-- If there is nothing to go on with, the last word has been said. -/
theorem lastWord_contextSearch (messageId : String) (route : ChatRouteDecision) :
    Safe chatWorld speaking (LastWord fun found ↦ found.isNone)
      (contextSearch P conversation payload messageId route) s := by
  have herror : ∀ x u, ChatDb.ended u = false → LastWord
      (fun found : Option (ChatRouteDecision × List SearchResult) ↦ found.isNone) (.error x) u := fun _ _ hu ↦ hu
  rw [contextSearch]
  refine leaves_bind (lastWordRules.say _ rfl) hs herror fun _ s hs ↦ ?_
  refine leaves_bind (lastWordRules.cancelIfDisconnected P) hs herror fun _ s hs ↦ ?_
  refine leaves_bind (lastWordRules.say _ rfl) hs herror fun _ s hs ↦ ?_
  split
  · refine leaves_bind (lastWordRules.searchWeb conversation payload route) hs herror fun found s hs ↦ ?_
    dsimp only
    split
    · split
      · exact hs
      · refine leaves_bind (leaves_completeMessage _ _ _ _ _) hs herror fun _ s hs ↦ ?_
        refine Safe.bind (Safe.mono ?_ (safe_lastWord rfl hs))
        rintro (x | _) u hu
        · exact hu
        · exact hu
    · exact hs
  · exact hs

theorem lastWord_contextAnswer (fuel : ℕ) (messageId historyContext : String) (route : ChatRouteDecision)
    (results : List SearchResult) :
    Safe chatWorld speaking (LastWord fun _ ↦ true)
      (contextAnswer P conversation payload fuel messageId historyContext route results) s := by
  have herror : ∀ x u, ChatDb.ended u = false → LastWord (fun _ : Unit ↦ true) (.error x) u := fun _ _ hu ↦ hu
  rw [contextAnswer]
  refine leaves_bind (lastWordRules.sayAll sources_notTerminal) hs herror fun _ s hs ↦ ?_
  refine leaves_bind (lastWordRules.recallMemory payload route) hs herror fun recalled s hs ↦ ?_
  refine leaves_bind (lastWordRules.sayAll sources_notTerminal) hs herror fun _ s hs ↦ ?_
  refine leaves_bind (lastWordRules.say _ rfl) hs herror fun _ s hs ↦ ?_
  refine leaves_bind (lastWordRules.cancelIfDisconnected P) hs herror fun _ s hs ↦ ?_
  refine leaves_bind (lastWordRules.generateAnswer P payload fuel (fun op _ ↦ keeps_call_ended (fun _ _ ↦ trivial) op) fun _ ↦ .pure ()) hs herror
    fun generated s hs ↦ ?_
  refine leaves_bind (leaves_completeMessage _ _ _ _ _) hs herror fun _ s hs ↦ ?_
  refine leaves_bind ((leaves_queueExtraction payload _).when _) hs herror fun _ s hs ↦ ?_
  refine leaves_bind (lastWordRules.say _ rfl) hs herror fun _ s hs ↦ ?_
  exact safe_lastWord rfl hs

theorem lastWord_yieldError (code message : String) (retryable : Bool) :
    Safe chatWorld speaking (LastWord fun _ ↦ true) (yieldError code message retryable) s := by
  rw [yieldError]
  split
  · exact safe_lastWord rfl hs
  · exact hs

theorem lastWord_documentHandlers (x : ChatException) :
    Safe chatWorld speaking (LastWord fun _ ↦ true) (documentHandlers x) s := by
  have herror : ∀ x u, ChatDb.ended u = false → LastWord (fun _ : Unit ↦ true) (.error x) u := fun _ _ hu ↦ hu
  cases x with
  | cancelled => exact leaves_bind (leaves_markMessage _ _) hs herror fun _ _ hu ↦ hu
  | exit => exact hs
  | _ => exact leaves_bind (leaves_markMessage _ _) hs herror fun _ _ hu ↦ lastWord_yieldError hu _ _ _

theorem lastWord_contextHandlers (route : ChatRouteDecision) (x : ChatException) :
    Safe chatWorld speaking (LastWord fun _ ↦ true) (contextHandlers route x) s := by
  have herror : ∀ x u, ChatDb.ended u = false → LastWord (fun _ : Unit ↦ true) (.error x) u := fun _ _ hu ↦ hu
  cases x with
  | cancelled => exact leaves_bind (leaves_markMessage _ _) hs herror fun _ _ hu ↦ hu
  | exit => exact hs
  | _ => exact leaves_bind (leaves_markMessage _ _) hs herror fun _ _ hu ↦ lastWord_yieldError hu _ _ _

theorem lastWord_streamDocumentAnswer (fuel : ℕ) (messageId : String) (route : ChatRouteDecision) :
    Safe chatWorld speaking (LastWord fun _ ↦ true)
      (streamDocumentAnswer P conversation payload fuel messageId route) s := by
  have herror : ∀ x u, ChatDb.ended u = false → LastWord (fun _ : Unit ↦ true) (.error x) u := fun _ _ hu ↦ hu
  have hauthorize : LeavesLastWord (authorizeDocuments payload) :=
    .bind ((lastWordRules.apiError _ _ _).when _) fun _ ↦ .bind (leaves_call _) fun _ ↦
      .bind ((lastWordRules.apiError _ _ _).when _) fun _ ↦ .pure _
  rw [streamDocumentAnswer]
  split
  · exact hs
  refine leaves_bind hauthorize hs herror fun selected s hs ↦ ?_
  refine leaves_bind (leaves_createPendingMessages payload .documents) hs herror fun _ s hs ↦ ?_
  refine Safe.tryCatch (Safe.mono ?_ (lastWord_documentAnswer P payload hs fuel messageId selected route))
  rintro (x | _) u hu
  · exact lastWord_documentHandlers hu x
  · exact hu

theorem lastWord_streamContextAnswer (fuel : ℕ) (messageId : String) (route : ChatRouteDecision) :
    Safe chatWorld speaking (LastWord fun _ ↦ true)
      (streamContextAnswer P conversation payload fuel messageId route) s := by
  have herror : ∀ x u, ChatDb.ended u = false → LastWord (fun _ : Unit ↦ true) (.error x) u := fun _ _ hu ↦ hu
  rw [streamContextAnswer]
  split
  · exact hs
  refine leaves_bind (leaves_call _) hs herror fun history s hs ↦ ?_
  refine leaves_bind (leaves_createPendingMessages payload route.mode) hs herror fun _ s hs ↦ ?_
  have hfound : Safe chatWorld speaking (LastWord fun found ↦ found.isNone)
      ((contextSearch P conversation payload messageId route).tryCatch fun x ↦ do
        contextHandlers route x
        pure none) s := by
    refine Safe.tryCatch (Safe.mono ?_ (lastWord_contextSearch P conversation payload hs messageId route))
    rintro (x | found) u hu
    · refine Safe.bind (Safe.mono ?_ (lastWord_contextHandlers hu route x))
      rintro (y | _) v hv
      · exact hv
      · exact hv
    · exact hu
  refine Safe.bind (Safe.mono ?_ hfound)
  rintro (x | found) u hu
  · exact hu
  cases found with
  | none => exact hu
  | some found =>
    refine Safe.tryCatch (Safe.mono ?_
      (lastWord_contextAnswer P conversation payload hu fuel messageId _ found.1 found.2))
    rintro (x | _) v hv
    · exact lastWord_contextHandlers hv found.1 x
    · exact hv

/-- The generator that is read. -/
theorem lastWord_streamChatAnswer (fuel : ℕ) (messageId : String) :
    Safe chatWorld speaking (LastWord fun _ ↦ true) (streamChatAnswer P conversation payload fuel messageId) s := by
  have hdelegate {t : ChatRun Unit} (ht : Safe chatWorld speaking (LastWord fun _ ↦ true) t s) :
      Safe chatWorld speaking (LastWord fun _ ↦ true) t.delegate s :=
    Safe.delegate (K := speaking) (L := speaking) ⟨rfl, rfl, rfl, rfl⟩ (fun _ _ hy ↦ hy)
      (fun _ _ _ _ hu ↦ ⟨hu, fun _ hx ↦ hx.elim⟩) ht
  rw [streamChatAnswer]
  split
  · exact hdelegate (lastWord_streamDocumentAnswer P conversation payload hs fuel messageId _)
  · exact hdelegate (lastWord_streamContextAnswer P conversation payload hs fuel messageId _)

end Answers

end GenericApp
