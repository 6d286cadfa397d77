import GenericApp.Chat.ConversationTurns

/-!
# When a conversation reads back as it was produced

After any turns the messages are there as they have been written, and each final event says what is committed
(`Conversation.Sound`). That a conversation also reads back in this order takes ids that have been drawn in order:
`conversation_reads_back` says so of every run of turns, and `sources_read_back_swapped` is a run in which two
sources change places.
-/

namespace GenericApp

open Py

/-- The conversation as it is returned is as it was produced: the messages in their order, each user message directly
before the reply, and the sources of each answer in the order of the final event and of the prompt. -/
structure ReadsAsProduced (availableDocuments : List String → List String) (s : Conversation) : Prop where
  readsBack : ReadsBack availableDocuments s.db.committed
  turns : ∃ turns : List (ChatMessageRow × ChatMessageRow),
    (serialize availableDocuments s.db.committed none).map SerializedMessage.row =
        turns.flatMap (fun t ↦ [t.1, t.2]) ∧
      ∀ t ∈ turns, t.1.role = .user ∧ t.2.role = .assistant
  final : ∀ messageId answer sources asked, (ChatStreamEvent.final messageId answer sources, asked) ∈ s.said →
    ∃ m ∈ serialize availableDocuments s.db.committed none, toString m.row.id = messageId ∧
      m.row.message.content = answer ∧ m.sources.map SerializedSource.source = sources ∧ Prompted sources asked

/-- What holds after any turns. -/
structure Conversation.Sound (D : Draws) (s : Conversation) : Prop where
  rows : s.db.Sound D
  turn : Safe (conversationWorld D) (listening D) (fun _ _ ↦ True) s.turn s.db

section Runs

variable {D : Draws} {P : ChatPorts} {s t : Conversation}

/-- One step, whatever it is. -/
theorem Conversation.Sound.step (hdistinct : Function.Injective D.uuid) (hclock : Monotone D.clock)
    (hP : P.documentContext = documentContext) (hs : s.Sound D) {a : ConversationAction}
    (h : Conversation.step D P s a = some t) : t.Sound D := by
  cases a with
  | begin conversation payload fuel =>
    obtain rfl := Option.some.inj h
    refine ⟨⟨hs.rows.grown, hs.rows.kept⟩, ?_⟩
    exact safe_turn hdistinct hclock hs.rows.grown P conversation payload fuel hP
      ⟨⟨rfl, rfl, le_rfl, hs.rows.kept⟩, rfl, rfl⟩
  | «continue» input =>
    obtain ⟨⟨turn, db⟩, hstep, rfl⟩ := Option.map_eq_some_iff.1 h
    have hmeets : (listening D).Meets (s.turn, s.db) input := by
      cases hturn : s.turn with
      | done a | raised x => cases input with | _ => trivial
      | call op k | emit y k => cases input with | _ => trivial
    have hyield : ∀ y u, (listening D).said y u → (listening D).guarantee u ((conversationWorld D).spoken y u) := by
      intro y u hsaid hu
      refine ⟨hu.grown, fun e he ↦ ?_⟩
      rcases List.mem_append.1 he with he | he
      · exact hu.kept e he
      · exact List.mem_singleton.1 he ▸ hsaid
    obtain ⟨hsafe, hguarantee⟩ := Safe.step (fun _ _ ↦ rfl) hyield hs.turn hmeets hstep
    exact ⟨hguarantee hs.rows, hsafe⟩

theorem Conversation.Sound.said (hs : s.Sound D) : ∀ e ∈ s.said, AnswerKept s.db.committed e := by
  intro e he
  have hturn := hs.turn
  unfold Conversation.said at he
  cases h : s.turn with
  | emit y k =>
    rw [h] at he hturn
    rcases List.mem_append.1 he with he | he
    · exact hs.rows.kept e he
    · exact List.mem_singleton.1 he ▸ hturn.1
  | done | raised | call =>
    rw [h] at he
    exact hs.rows.kept e he

theorem sound_of_reachable (hdistinct : Function.Injective D.uuid) (hclock : Monotone D.clock)
    (hP : P.documentContext = documentContext) (h : (conversationTurns D P).Reachable Machine.anyStep s) :
    s.Sound D := by
  refine h.invariant ?_ fun s a t hs _ hstep ↦ hs.step hdistinct hclock hP hstep
  rintro _ rfl
  have hgrown : Grown D 0 {} :=
    { turns := ⟨[], rfl, List.forall_mem_nil _⟩
      drawn := List.forall_mem_nil _
      sources := List.forall_mem_nil _
      clock := List.Pairwise.nil }
  exact ⟨⟨hgrown, List.forall_mem_nil _⟩, trivial⟩

/-- Nothing else is needed than that the ids are in order. -/
theorem Conversation.Sound.readsAsProduced (availableDocuments : List String → List String) (hs : s.Sound D)
    (h : InOrder s.db.committed) : ReadsAsProduced availableDocuments s := by
  have hreads := readsBack_of_inOrder availableDocuments hs.rows.grown.clock h
  refine ⟨hreads, ?_, ?_⟩
  · obtain ⟨turns, hturns, hroles⟩ := hs.rows.grown.turns
    exact ⟨turns, hreads.1.trans hturns, hroles⟩
  · intro messageId answer sources asked he
    obtain ⟨message, hmessage, hid, hanswered, hcontent, hsources, hprompted⟩ := hs.said _ he
    obtain ⟨m, hm, rfl⟩ := exists_mem_serialize availableDocuments hmessage
    exact ⟨m, hm, hid, hcontent, (hreads.2 m hm hanswered).trans hsources, hprompted⟩

end Runs

/-- After any turns of a conversation, each in a session of its own, with ids that are distinct and a clock that does
not go back: the conversation reads back as it was produced if messages that have been created at the same time, and
the sources of each answer, have been given ids in their order. Where no answer has a source twice, it does not
otherwise. -/
theorem conversation_reads_back {D : Draws} (hdistinct : Function.Injective D.uuid) (hclock : Monotone D.clock)
    (P : ChatPorts) (availableDocuments : List String → List String) {s : Conversation}
    (h : (conversationTurns D { P with documentContext := documentContext }).Reachable Machine.anyStep s) :
    (InOrder s.db.committed → ReadsAsProduced availableDocuments s) ∧
      ((∀ m ∈ s.db.committed.messages, m.Answered →
          ((s.db.committed.sourcesOf m.id).map ChatSourceRow.source).Nodup) →
        ReadsAsProduced availableDocuments s → InOrder s.db.committed) :=
  ⟨(sound_of_reachable hdistinct hclock rfl h).readsAsProduced availableDocuments,
    fun hnodup hreads ↦ inOrder_of_readsBack availableDocuments hnodup hreads.readsBack⟩

/-! ### Two sources -/

section TwoSources

/-- Two chunks of one document are found, and the answer is short. -/
def foundChunk (chunkId : Uuid) : RetrievedChunk := ⟨chunkId, 7, "text", 1, "notes.txt", 0, none, []⟩

def foundAnswers : (op : ChatOp) → ChatAns op
  | .listRecentMessages _ => []
  | .listIndexedDocuments _ => ["7"]
  | .disconnected => false
  | .search _ => []
  | .recallForPrompt _ => ⟨"", [], false⟩
  | .retrieve _ _ => { chunks := [foundChunk 1, foundChunk 2] }
  | .nextChunk _ _ => .stop
  | .runRagAnswer _ _ => ⟨"r", "m", "yes", none, none⟩
  | .createUserMessage .. | .createAssistantMessage _ | .createSources _ | .commit
  | .enforceWebSearchLimits | .enterWebSearchSlot | .enterProviderSlot | .closeStream | .assign _
  | .queueMemoryExtraction _ _ => ()

def documentsPorts : ChatPorts where
  maxHistoryMessages := 20
  maxMessageBytes := 32768
  streams := false
  polled := false
  decide _ _ := { mode := .documents, reason := "explicit_mode", useDocuments := true }
  trimChunks := id
  documentContext := documentContext
  validCitations _ _ := true

/-- What happens in one turn up to its final event. -/
def documentsInputs : List (Input ChatOp ChatAns ChatException) :=
  List.replicate 4 (.returns foundAnswers) ++ List.replicate 2 .resume ++ [.returns foundAnswers] ++
    List.replicate 3 .resume ++ List.replicate 2 (.returns foundAnswers) ++ [.resume] ++
      List.replicate 3 (.returns foundAnswers) ++ [.resume]

def documentsTurn : List ConversationAction :=
  .begin ⟨"c", none, .documents, false, false⟩ { content := "hi", mode := .documents, documentIds := ["7"] } 1 ::
    documentsInputs.map .continue

/-- The ids in the order of the draws. -/
def orderedDraws : Draws := ⟨id, fun k ↦ k⟩

/-- The ids of the two sources the other way round. -/
def swappedDraws : Draws := ⟨Equiv.swap 2 3, fun k ↦ k⟩

/-- The sources of the final events. -/
def finalSources : ChatStreamEvent × List String → Option (List String)
  | (.final _ _ sources, _) => some (sources.map ChatSource.sourceId)
  | _ => none

/-- The sources as they are returned, and as they have been said. -/
def shownSources (s : Conversation) : List (List String) × List (List String) :=
  ((serialize id s.db.committed none).map fun m ↦ m.sources.map fun source ↦ source.source.sourceId,
    s.said.filterMap finalSources)

/-- What it takes, and that no answer has a source twice. -/
def orderedAndDistinct (s : Conversation) : Bool :=
  decide (InOrder s.db.committed) && decide (∀ m ∈ s.db.committed.messages, m.Answered →
    ((s.db.committed.sourcesOf m.id).map ChatSourceRow.source).Nodup)

/-- A turn with two sources, whose ids come in order. -/
theorem conversation_reads_back_ordered : ∃ s,
    (conversationTurns orderedDraws documentsPorts).Reachable Machine.anyStep s ∧ s.said.length = 8 ∧
      ReadsAsProduced id s ∧ InOrder s.db.committed := by
  have hrun : ((conversationTurns orderedDraws documentsPorts).run Machine.anyStep {} documentsTurn).map
      (fun s ↦ (s.said.length, orderedAndDistinct s)) = some (8, true) := by
    decide +kernel
  obtain ⟨s, hs, hshown⟩ := Option.map_eq_some_iff.1 hrun
  obtain ⟨hlength, hordered⟩ := Prod.mk.inj hshown
  obtain ⟨hinOrder, hdistinct⟩ := Bool.and_eq_true_iff.1 hordered
  have hreachable : (conversationTurns orderedDraws documentsPorts).Reachable Machine.anyStep s :=
    ⟨{}, rfl, Machine.later_of_run hs⟩
  have hclock : Monotone orderedDraws.clock := fun _ _ h ↦ Int.ofNat_le.2 h
  obtain ⟨hreads, hneeded⟩ :=
    conversation_reads_back Function.injective_id hclock documentsPorts id hreachable
  have hproduced := hreads (of_decide_eq_true hinOrder)
  exact ⟨s, hreachable, hlength, hproduced, hneeded (of_decide_eq_true hdistinct) hproduced⟩

/-- The final event says the one order, and the conversation is returned with the other. -/
theorem sources_read_back_swapped : Function.Injective swappedDraws.uuid ∧ Monotone swappedDraws.clock ∧
    ¬∀ s, (conversationTurns swappedDraws documentsPorts).Reachable Machine.anyStep s → ReadsAsProduced id s := by
  refine ⟨(Equiv.swap 2 3).injective, fun _ _ h ↦ Int.ofNat_le.2 h, fun hall ↦ ?_⟩
  have hrun : ((conversationTurns swappedDraws documentsPorts).run Machine.anyStep {} documentsTurn).map
      shownSources = some ([[], ["2", "1"]], [["1", "2"]]) := by
    decide +kernel
  obtain ⟨s, hs, hshown⟩ := Option.map_eq_some_iff.1 hrun
  obtain ⟨hreturned, hsaid⟩ := Prod.mk.inj hshown
  have hproduced := hall s ⟨{}, rfl, Machine.later_of_run hs⟩
  obtain ⟨⟨y, asked⟩, he, hfinal⟩ : ∃ e ∈ s.said, finalSources e = some ["1", "2"] :=
    List.mem_filterMap.1 (hsaid ▸ List.mem_singleton_self _)
  cases y with
  | final messageId answer sources =>
    obtain ⟨m, hm, -, -, hsources, -⟩ := hproduced.final messageId answer sources asked he
    have hmine : (m.sources.map fun source ↦ source.source.sourceId) = ["1", "2"] := by
      rw [← Option.some.inj hfinal, ← hsources, List.map_map]
      exact rfl
    have hmem : ["1", "2"] ∈ [[], ["2", "1"]] := hreturned ▸ hmine ▸ List.mem_map_of_mem hm
    exact absurd hmem (by decide)
  | _ => exact nomatch hfinal

end TwoSources

end GenericApp
