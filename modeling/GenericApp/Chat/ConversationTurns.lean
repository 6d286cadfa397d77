import GenericApp.Chat.TurnRows

/-!
# The turns of a conversation keep its rows

Whatever happens in a turn, what is committed is sound (`ConversationDb.Sound`), and so is what is said. `turning` is
the contract that says so. The invariant of a turn goes through the phases of the generator: before its messages are
committed (`TurnOpen`), inside the `try` (`TurnPending`), and with the messages committed (`TurnWriting`), which is
what a handler finds.
-/

namespace GenericApp

open Py

/-! ### The contract -/

section Contract

variable (D : Draws)

/-- The contract of the generators inside a turn. Every call may raise, before or after its effect. -/
def turning : Contract ChatOp ChatStreamEvent ChatException ConversationDb where
  raises _ _ _ _ := True
  throws _ _ _ := False
  guarantee s t := s.Sound D → t.Sound D
  said y s := AnswerKept s.committed (y, s.asked)
  rely y s t := t = s.hear y

/-- The contract of the generator of the chunks, which yields inside an invariant. -/
def chunking (I : ConversationDb → Prop) : Contract ChatOp RagGenerationChunk ChatException ConversationDb where
  raises _ _ _ _ := True
  throws _ _ _ := False
  guarantee s t := s.Sound D → t.Sound D
  said _ := I
  rely _ _ := I

/-- The contract of the turn, into which anything may be thrown. -/
def listening : Contract ChatOp ChatStreamEvent ChatException ConversationDb :=
  { turning D with throws := fun _ _ _ ↦ True }

/-- The rows before the messages of the turn are committed. -/
structure TurnOpen (n : ℕ) (before : ChatRows) (s : ConversationDb) : Prop where
  committed : s.committed = before
  asked : s.asked = []
  drawn : n ≤ s.drawn
  heard : ∀ e ∈ s.heard, AnswerKept before e

/-- The turn has not added anything. -/
structure TurnBegun (n : ℕ) (before : ChatRows) (s : ConversationDb) : Prop extends TurnOpen n before s where
  session : s.session = before
  first : s.drawn = n

/-- The messages of the turn are committed. -/
structure TurnWriting (n : ℕ) (before : ChatRows) (s : ConversationDb) : Prop where
  session : Turned D n before s.session
  committed : Turned D n before s.committed
  assistant : s.assistant = some (D.uuid (n + 1))
  drawn : n + 2 ≤ s.drawn
  heard : ∀ e ∈ s.heard, AnswerKept before e

/-- No sources have been added, and `A` holds of the contexts that the provider has been asked with. -/
structure TurnPending (n : ℕ) (before : ChatRows) (A : List String → Prop) (s : ConversationDb) : Prop
    extends TurnWriting D n before s where
  sources : s.session.sources = before.sources
  asked : A s.asked

end Contract

section Turn

variable {D : Draws} {n : ℕ} {before : ChatRows} {s : ConversationDb}

theorem TurnOpen.sound (hbefore : Grown D n before) (h : TurnOpen n before s) : s.Sound D where
  grown := h.committed ▸ hbefore.mono h.drawn
  kept := h.committed ▸ h.heard

theorem TurnWriting.sound (hdistinct : Function.Injective D.uuid) (hclock : Monotone D.clock)
    (hbefore : Grown D n before) (h : TurnWriting D n before s) : s.Sound D where
  grown := h.committed.grown hclock hbefore h.drawn
  kept e he := (h.heard e he).turned hdistinct hbefore h.committed

theorem kept_of_notTerminal {y : ChatStreamEvent} (hy : y.isTerminal = false) (rows : ChatRows)
    (asked : List String) : AnswerKept rows (y, asked) := by
  cases y with
  | final => exact nomatch hy
  | _ => trivial

theorem heard_hear {y : ChatStreamEvent} (h : ∀ e ∈ s.heard, AnswerKept before e)
    (hy : AnswerKept before (y, s.asked)) : ∀ e ∈ (s.hear y).heard, AnswerKept before e := by
  intro e he
  rcases List.mem_append.1 he with he | he
  · exact h e he
  · exact List.mem_singleton.1 he ▸ hy

theorem TurnWriting.hear {y : ChatStreamEvent} (h : TurnWriting D n before s)
    (hy : AnswerKept before (y, s.asked)) : TurnWriting D n before (s.hear y) :=
  { h with heard := heard_hear h.heard hy }

theorem TurnPending.hear {A : List String → Prop} {y : ChatStreamEvent} (h : TurnPending D n before A s)
    (hy : y.isTerminal = false) : TurnPending D n before A (s.hear y) :=
  { h.toTurnWriting.hear (kept_of_notTerminal hy _ _) with
    sources := h.sources
    asked := h.asked }

/-! ### Calls -/

/-- What has to be known of a call in any world that writes these rows. -/
theorem safe_writes {Y : Type} {spoken : Y → ConversationDb → ConversationDb}
    {K : Contract ChatOp Y ChatException ConversationDb} (hK : K.guarantee = fun s t ↦ s.Sound D → t.Sound D) {op : ChatOp}
    {Q : Except ChatException (ChatAns op) → ConversationDb → Prop} (hs : s.Sound D)
    (heffect : (conversationEffect D op s).Sound D) (hok : ∀ a, Q (.ok a) (conversationEffect D op s))
    (herror : ∀ x, (writingWorld D spoken).raisable op x →
      Q (.error x) s ∧ Q (.error x) (conversationEffect D op s)) :
    Safe (writingWorld D spoken) K Q (callChat op : Answering Y (ChatAns op)) s := by
  have hguarantee {t : ConversationDb} (ht : t.Sound D) : K.guarantee s t := by
    rw [hK]
    exact fun _ ↦ ht
  refine Safe.await (hguarantee heffect) hok fun x late hx _ ↦ ?_
  cases late with
  | false => exact ⟨hguarantee hs, (herror x hx).1⟩
  | true => exact ⟨hguarantee heffect, (herror x hx).2⟩

theorem effect_of_asks {op : ChatOp} (h : op.asks = true) : conversationEffect D op s = s := by
  cases op with
  | createUserMessage | createAssistantMessage | createSources | commit | nextChunk | runRagAnswer | assign
  | queueMemoryExtraction => exact nomatch h
  | _ => rfl

theorem keeps_asks {Y : Type} {spoken : Y → ConversationDb → ConversationDb}
    {K : Contract ChatOp Y ChatException ConversationDb} (hK : K.guarantee = fun s t ↦ s.Sound D → t.Sound D)
    {I : ConversationDb → Prop} (hsound : ∀ s, I s → s.Sound D) {op : ChatOp} (hop : op.asks = true) :
    Keeps (writingWorld D spoken) K I (fun _ ↦ True) (callChat op : Answering Y (ChatAns op)) := by
  intro s hs
  have heffect : conversationEffect D op s = s := effect_of_asks hop
  have hI : I (conversationEffect D op s) := by rwa [heffect]
  exact safe_writes hK (hsound s hs) (hsound _ hI) (fun _ ↦ hI) fun _ _ ↦ ⟨⟨hs, trivial⟩, hI, trivial⟩

end Turn

section Rules

variable {D : Draws} (hdistinct : Function.Injective D.uuid) (hclock : Monotone D.clock) {n : ℕ}
  {before : ChatRows} (hbefore : Grown D n before) {A : List String → Prop}
include hdistinct hclock hbefore

/-- What comes before the answer leaves the rows of the turn pending. -/
theorem turnRules : PartRules (conversationWorld D) (writingWorld D fun _ s ↦ s) (turning D)
    (chunking D (TurnPending D n before A)) (TurnPending D n before A) fun _ ↦ True where
  raise _ _ := trivial
  call _ hop := keeps_asks rfl (fun _ hs ↦ hs.sound hdistinct hclock hbefore) hop
  say y hy := by
    refine .yieldOne (fun s _ ↦ kept_of_notTerminal hy _ _) ?_ fun _ _ _ _ ↦ trivial
    rintro s t hs rfl
    exact hs.hear hy
  chunkCall _ hop := keeps_asks rfl (fun _ hs ↦ hs.sound hdistinct hclock hbefore) hop
  chunkSay _ := .yieldOne (fun _ hs ↦ hs) (fun _ _ _ ht ↦ ht) fun _ _ _ _ ↦ trivial
  iterated := ⟨rfl, rfl, rfl, rfl⟩
  said _ _ hs := hs
  rely _ _ _ hu := hu

/-- The provider is asked with the one context. -/
theorem keeps_prompts {context : String} {op : ChatOp} (hop : op.Prompts context) :
    Keeps (writingWorld D fun _ s ↦ s) (chunking D (TurnPending D n before (∀ c ∈ ·, c = context)))
      (TurnPending D n before (∀ c ∈ ·, c = context)) (fun _ ↦ True)
      (callChat op : ChunkRun (ChatAns op)) := by
  intro s hs
  have heffect : conversationEffect D op s = { s with asked := s.asked ++ [context] } := by
    obtain ⟨query, rfl | rfl⟩ := hop
    · rfl
    · rfl
  have hasked : TurnPending D n before (∀ c ∈ ·, c = context) (conversationEffect D op s) := by
    rw [heffect]
    refine { hs with asked := fun c hc ↦ ?_ }
    rcases List.mem_append.1 hc with hc | hc
    · exact hs.asked c hc
    · exact List.mem_singleton.1 hc
  have hsound {t : ConversationDb} (ht : TurnPending D n before (∀ c ∈ ·, c = context) t) : t.Sound D :=
    ht.sound hdistinct hclock hbefore
  exact safe_writes rfl (hsound hs) (hsound hasked) (fun _ ↦ hasked) fun _ _ ↦ ⟨⟨hs, trivial⟩, hasked, trivial⟩

/-! ### Writing -/

omit hdistinct hclock in
/-- The session of a turn that has not committed anything. -/
theorem safe_open {op : ChatOp} {Q : Except ChatException (ChatAns op) → ConversationDb → Prop} {s : ConversationDb}
    (hs : TurnOpen n before s) (heffect : TurnOpen n before (conversationEffect D op s))
    (hok : ∀ a, Q (.ok a) (conversationEffect D op s))
    (herror : ∀ x t, Q (.error x) t) :
    Safe (conversationWorld D) (turning D) Q (callChat op) s :=
  safe_writes rfl (hs.sound hbefore) (heffect.sound hbefore) hok fun x _ ↦ ⟨herror x _, herror x _⟩

/-- What a part of the `try` ends with. -/
def TurnEnds {α : Type} (D : Draws) (n : ℕ) (before : ChatRows) (Q : α → ConversationDb → Prop) :
    Except ChatException α → ConversationDb → Prop
  | .ok a, s => Q a s
  | .error _, s => TurnWriting D n before s

/-- The messages are committed, or the turn is over. -/
def EntersTurn (D : Draws) (n : ℕ) (before : ChatRows) : Except ChatException Unit → ConversationDb → Prop
  | .ok _, s => TurnPending D n before (· = []) s
  | .error _, _ => True

omit hdistinct hclock hbefore in
/-- The two messages of a turn, added to a session in which nothing has been written. -/
theorem pending_of_begun {s : ConversationDb} (hs : TurnBegun n before s) (documentIds : List String)
    (content pending : ChatMessage) :
    TurnPending D n before (· = []) (conversationEffect D .commit
      (conversationEffect D (.createAssistantMessage pending) (createMessage D .user documentIds content s))) := by
  obtain ⟨⟨-, hasked, -, hheard⟩, hsession, hfirst⟩ := hs
  have hsources : s.session.sources = before.sources := congrArg ChatRows.sources hsession
  let user : ChatMessageRow := ⟨D.uuid s.drawn, D.clock s.drawn, .user, documentIds, content⟩
  let assistant : ChatMessageRow := ⟨D.uuid (s.drawn + 1), D.clock (s.drawn + 1), .assistant, [], pending⟩
  have hturned : Turned D n before { s.session with messages := s.session.messages ++ [user] ++ [assistant] } := by
    rw [hsession, List.append_assoc, ← hfirst]
    have huser : DrawnAt D s.drawn user := ⟨rfl, rfl⟩
    have hassistant : DrawnAt D (s.drawn + 1) assistant := ⟨rfl, rfl⟩
    exact
      { messages := ⟨user, assistant, rfl, ⟨huser, rfl⟩, hassistant, rfl⟩
        sources := ⟨[], (List.append_nil _).symm, List.forall_mem_nil _⟩ }
  exact
    { session := hturned
      committed := hturned
      assistant := hfirst ▸ rfl
      drawn := hfirst ▸ le_rfl
      heard := hheard
      sources := hsources
      asked := hasked }

theorem safe_pendingMessages (payload : ChatMessageRequest) (mode : ChatMode) {s : ConversationDb}
    (hs : TurnBegun n before s) :
    Safe (conversationWorld D) (turning D) (EntersTurn D n before) (createPendingMessages payload mode) s := by
  have hpending := pending_of_begun (D := D) hs (if mode = .documents then payload.documentIds.eraseDups else [])
    { content := payload.content, mode := mode, status := .completed }
    ⟨"", mode, .generating, none, none, none, none, none, none, none⟩
  obtain ⟨hcommitted, hasked, hdrawn, hheard⟩ := hs.toTurnOpen
  have hopen (documentIds : List String) (message : ChatMessage) :
      TurnOpen n before (createMessage D .user documentIds message s) :=
    ⟨hcommitted, hasked, Nat.le_succ_of_le hdrawn, hheard⟩
  have hopen' (documentIds : List String) (message pending : ChatMessage) :
      TurnOpen n before (conversationEffect D (.createAssistantMessage pending)
        (createMessage D .user documentIds message s)) :=
    ⟨hcommitted, hasked, Nat.le_succ_of_le (Nat.le_succ_of_le hdrawn), hheard⟩
  refine Safe.bind (safe_open hbefore hs.toTurnOpen (hopen _ _) (fun _ ↦ ?_) fun _ _ ↦ trivial)
  refine Safe.bind (safe_open hbefore (hopen _ _) (hopen' _ _ _) (fun _ ↦ ?_) fun _ _ ↦ trivial)
  exact safe_writes rfl ((hopen' _ _ _).sound hbefore) (hpending.sound hdistinct hclock hbefore)
    (fun _ ↦ hpending) fun _ _ ↦ ⟨trivial, trivial⟩

/-- Where the answer is committed. -/
structure TurnAnswered (D : Draws) (n : ℕ) (before : ChatRows) (answer : String) (sources : List ChatSource)
    (s : ConversationDb) : Prop extends TurnWriting D n before s where
  kept : AnswerKept s.committed (.final (toString (D.uuid (n + 1))) answer sources, s.asked)

theorem safe_assignTurn (update : MessageUpdate) {s : ConversationDb} (hs : TurnWriting D n before s) :
    Safe (conversationWorld D) (turning D) (fun r t ↦ r = .ok () ∧ TurnWriting D n before t ∧
        t = updateAssistant update s ∧ ∃ m ∈ t.session.messages, m.id = D.uuid (n + 1) ∧ m.role = .assistant ∧
          ∃ message, m.message = update.apply message)
      (callChat (.assign update)) s := by
  obtain ⟨user, assistant, hupdate, huser, hassistant, hrole⟩ := hs.session.update hdistinct hbefore update
  have hmessages : (updateAssistant update s).session.messages =
      before.messages ++ [user, { assistant with message := update.apply assistant.message }] := by
    rw [← hupdate, ← hs.assistant]
    rfl
  have hwriting : TurnWriting D n before (updateAssistant update s) :=
    { hs with session := ⟨⟨user, _, hmessages, huser, hassistant, hrole⟩, hs.session.sources⟩ }
  refine safe_writes rfl (hs.sound hdistinct hclock hbefore) (hwriting.sound hdistinct hclock hbefore)
    (fun _ ↦ ⟨rfl, hwriting, rfl, ?_⟩) fun _ hx ↦ nomatch hx
  refine ⟨{ assistant with message := update.apply assistant.message }, ?_, hassistant.1, hrole, _, rfl⟩
  change _ ∈ (updateAssistant update s).session.messages
  rw [hmessages]
  exact List.mem_append_right _ (List.mem_cons_of_mem _ List.mem_cons_self)

/-- A commit of the messages of the turn. -/
theorem safe_commitTurn {Q : Unit → ConversationDb → Prop} {s : ConversationDb} (hs : TurnWriting D n before s)
    (hQ : TurnWriting D n before { s with committed := s.session } → Q () { s with committed := s.session }) :
    Safe (conversationWorld D) (turning D) (TurnEnds D n before Q) (callChat .commit) s := by
  have hwriting : TurnWriting D n before { s with committed := s.session } := { hs with committed := hs.session }
  exact safe_writes rfl (hs.sound hdistinct hclock hbefore) (hwriting.sound hdistinct hclock hbefore)
    (fun _ ↦ hQ hwriting) fun _ _ ↦ ⟨hs, hwriting⟩

theorem safe_completeTurn (answer modelName : String) (generation : Option GenerationResult)
    {sources : List ChatSource} (route : Option ChatRouteDecision)
    (hprompted : ∀ asked, A asked → Prompted sources asked) {s : ConversationDb}
    (hs : TurnPending D n before A s) :
    Safe (conversationWorld D) (turning D)
      (TurnEnds D n before fun _ t ↦ TurnAnswered D n before answer sources t)
      (completeMessage answer modelName generation sources route) s := by
  refine Safe.bind (Safe.mono ?_ (safe_assignTurn hdistinct hclock hbefore _ hs.toTurnWriting))
  rintro _ t ⟨rfl, ht, hupdate, m, hm, hid, hrole, message, hmessage⟩
  have hsources : t.session.sources = before.sources := hupdate ▸ hs.sources
  have hasked : A t.asked := hupdate ▸ hs.asked
  have hcommit {u : ConversationDb} (hu : TurnWriting D n before u) (hmu : m ∈ u.session.messages) (drawn : ℕ)
      (hadded : u.session.sources = before.sources ++ sourceRows D (D.uuid (n + 1)) drawn sources)
      (hu' : A u.asked) :
      Safe (conversationWorld D) (turning D)
        (TurnEnds D n before fun _ t ↦ TurnAnswered D n before answer sources t) (callChat .commit) u := by
    refine safe_commitTurn hdistinct hclock hbefore hu fun hwriting ↦ ⟨hwriting, m, hmu, congrArg toString hid,
      ⟨hrole, hmessage ▸ rfl⟩, hmessage ▸ rfl, ?_, hprompted _ hu'⟩
    rw [hid]
    exact sourcesOf_turn hdistinct hbefore hadded
  refine Safe.bind (Safe.when (fun _ ↦ ?_) fun hnone ↦ ?_)
  · -- the sources are added behind those of the turns before
    have hcreate : createSources D sources t =
        { t with
          session :=
            { t.session with sources := t.session.sources ++ sourceRows D (D.uuid (n + 1)) t.drawn sources }
          drawn := t.drawn + sources.length } := by
      rw [createSources, ht.assistant]
    have hwriting : TurnWriting D n before (createSources D sources t) := by
      rw [hcreate, hsources]
      exact
        { session := ⟨ht.session.messages, _, rfl, fun row hrow ↦ messageId_of_mem_sourceRows hrow⟩
          committed := ht.committed
          assistant := ht.assistant
          drawn := Nat.le_add_right_of_le ht.drawn
          heard := ht.heard }
    refine safe_writes rfl (ht.sound hdistinct hclock hbefore) (hwriting.sound hdistinct hclock hbefore)
      (fun _ ↦ ?_) fun _ _ ↦ ⟨ht, hwriting⟩
    change Safe _ _ _ _ (createSources D sources t)
    have hadded : (createSources D sources t).session.sources =
        before.sources ++ sourceRows D (D.uuid (n + 1)) t.drawn sources := by
      rw [hcreate, hsources]
    refine hcommit hwriting ?_ t.drawn hadded ?_
    · rwa [hcreate]
    · rwa [hcreate]
  · obtain rfl := not_not.1 hnone
    exact hcommit ht hm t.drawn (hsources.trans (List.append_nil _).symm) hasked

theorem safe_markTurn (status : ChatMessageStatus) (errorCode : String) {s : ConversationDb}
    (hs : TurnWriting D n before s) :
    Safe (conversationWorld D) (turning D) (TurnEnds D n before fun _ t ↦ TurnWriting D n before t)
      (markMessage status errorCode) s := by
  refine Safe.bind (Safe.mono ?_ (safe_assignTurn hdistinct hclock hbefore _ hs))
  rintro _ t ⟨rfl, ht, -⟩
  exact safe_commitTurn hdistinct hclock hbefore ht id

/-! ### The two `try`s -/

section Sequence

variable {α β : Type} {R : β → ConversationDb → Prop} {Q : α → ConversationDb → Prop} {s : ConversationDb}

omit hdistinct hclock hbefore in
theorem turnEnds_bind {t : ChatRun β} {f : β → ChatRun α}
    (ht : Safe (conversationWorld D) (turning D) (TurnEnds D n before R) t s)
    (hf : ∀ b u, R b u → Safe (conversationWorld D) (turning D) (TurnEnds D n before Q) (f b) u) :
    Safe (conversationWorld D) (turning D) (TurnEnds D n before Q) (t >>= f) s := by
  refine Safe.bind (Safe.mono ?_ ht)
  rintro (x | b) u hu
  · exact hu
  · exact hf b u hu

omit hdistinct hclock hbefore in
theorem pending_bind {t : ChatRun β} {f : β → ChatRun α}
    (ht : Keeps (conversationWorld D) (turning D) (TurnPending D n before A) (fun _ ↦ True) t)
    (hs : TurnPending D n before A s)
    (hf : ∀ b u, TurnPending D n before A u →
      Safe (conversationWorld D) (turning D) (TurnEnds D n before Q) (f b) u) :
    Safe (conversationWorld D) (turning D) (TurnEnds D n before Q) (t >>= f) s := by
  refine turnEnds_bind (R := fun _ u ↦ TurnPending D n before A u) (Safe.mono ?_ (ht s hs)) hf
  rintro (x | b) u hu
  · exact hu.1.toTurnWriting
  · exact hu

omit hdistinct hclock hbefore in
/-- The final event says what is committed. -/
theorem safe_sayFinal {answer : String} {sources : List ChatSource}
    (hs : TurnAnswered D n before answer sources s) :
    Safe (conversationWorld D) (turning D) (TurnEnds D n before fun _ _ ↦ True)
      (Coroutine.yieldOne (.final (toString (D.uuid (n + 1))) answer sources) : ChatRun Unit) s :=
  Safe.yieldOne hs.kept fun _ _ ↦ ⟨trivial, fun _ hx ↦ hx.elim⟩

omit hdistinct hclock hbefore in
/-- An event between the answer and the final event. -/
theorem safe_sayAnswered {answer : String} {sources : List ChatSource} {y : ChatStreamEvent}
    (hy : y.isTerminal = false) (hs : TurnAnswered D n before answer sources s) :
    Safe (conversationWorld D) (turning D)
      (TurnEnds D n before fun _ t ↦ TurnAnswered D n before answer sources t)
      (Coroutine.yieldOne y : ChatRun Unit) s := by
  refine Safe.yieldOne (kept_of_notTerminal hy _ _) ?_
  rintro t rfl
  exact ⟨⟨hs.toTurnWriting.hear (kept_of_notTerminal hy _ _), hs.kept⟩, fun _ hx ↦ hx.elim⟩

end Sequence

section Answers

variable (P : ChatPorts) (conversation : ChatConversation) (payload : ChatMessageRequest) (fuel : ℕ)

/-- Nothing has been asked yet, so `context` is the one context. -/
theorem safe_generate {α : Type} {Q : α → ConversationDb → Prop} {context : String}
    {validate : String → ChatRun Unit} {f : String × GenerationResult → ChatRun α} {s : ConversationDb}
    (hs : TurnPending D n before (· = []) s)
    (hvalidate : ∀ answer, Keeps (conversationWorld D) (turning D)
      (TurnPending D n before (∀ c ∈ ·, c = context)) (fun _ ↦ True) (validate answer))
    (hf : ∀ generated u, TurnPending D n before (∀ c ∈ ·, c = context) u →
      Safe (conversationWorld D) (turning D) (TurnEnds D n before Q) (f generated) u) :
    Safe (conversationWorld D) (turning D) (TurnEnds D n before Q)
      (generateAnswer P payload fuel context validate >>= f) s := by
  have hasked : TurnPending D n before (∀ c ∈ ·, c = context) s :=
    { hs with asked := hs.asked ▸ List.forall_mem_nil _ }
  exact pending_bind ((turnRules hdistinct hclock hbefore).generateAnswer P payload fuel
    (fun _ hop ↦ keeps_prompts hdistinct hclock hbefore hop) hvalidate) hasked hf

theorem safe_turnDocumentAnswer (hP : P.documentContext = documentContext) (selectedDocumentIds : List String)
    (route : ChatRouteDecision) {s : ConversationDb} (hs : TurnPending D n before (· = []) s) :
    Safe (conversationWorld D) (turning D) (TurnEnds D n before fun _ _ ↦ True)
      (documentAnswer P payload fuel (toString (D.uuid (n + 1))) selectedDocumentIds route) s := by
  have hrules {A : List String → Prop} := turnRules (A := A) hdistinct hclock hbefore
  rw [documentAnswer]
  refine pending_bind (hrules.say _ rfl) hs fun _ s hs ↦ ?_
  refine pending_bind (hrules.cancelIfDisconnected P) hs fun _ s hs ↦ ?_
  refine pending_bind (hrules.say _ rfl) hs fun _ s hs ↦ ?_
  refine pending_bind (hrules.retrieveChunks payload selectedDocumentIds) hs fun retrieved s hs ↦ ?_
  dsimp only
  split
  · have hnone : ∀ asked, asked = [] → Prompted [] asked := by
      rintro _ rfl
      exact .inl ⟨[], "", rfl, List.forall_mem_nil _⟩
    refine turnEnds_bind (safe_completeTurn hdistinct hclock hbefore _ _ _ _ hnone hs) fun _ s hs ↦ ?_
    exact safe_sayFinal hs
  · refine pending_bind (hrules.sayAll sources_notTerminal) hs fun _ s hs ↦ ?_
    refine pending_bind (hrules.say _ rfl) hs fun _ s hs ↦ ?_
    refine pending_bind (hrules.cancelIfDisconnected P) hs fun _ s hs ↦ ?_
    refine safe_generate hdistinct hclock hbefore P payload fuel hs (fun answer ↦ ?_) fun generated s hs ↦ ?_
    · split
      · exact .pure ()
      · exact hrules.apiError _ _ _
    · have hprompted : ∀ asked : List String,
          (∀ c ∈ asked, c = P.documentContext (P.trimChunks retrieved) payload.content) →
            Prompted ((P.trimChunks retrieved).map sourceFromChunk) asked := by
        rw [hP]
        exact fun asked hasked ↦ .inl ⟨_, _, rfl, hasked⟩
      refine turnEnds_bind (safe_completeTurn hdistinct hclock hbefore _ _ _ _ hprompted hs) fun _ s hs ↦ ?_
      refine turnEnds_bind (safe_sayAnswered rfl hs) fun _ s hs ↦ ?_
      exact safe_sayFinal hs

/-- There is something to go on with, and nothing has been asked, or the final event has been read. -/
theorem safe_turnContextSearch (route : ChatRouteDecision) {s : ConversationDb}
    (hs : TurnPending D n before (· = []) s) :
    Safe (conversationWorld D) (turning D)
      (TurnEnds D n before fun found t ↦ found.isSome → TurnPending D n before (· = []) t)
      (contextSearch P conversation payload (toString (D.uuid (n + 1))) route) s := by
  have hrules := turnRules (A := (· = [])) hdistinct hclock hbefore
  rw [contextSearch]
  refine pending_bind (hrules.say _ rfl) hs fun _ s hs ↦ ?_
  refine pending_bind (hrules.cancelIfDisconnected P) hs fun _ s hs ↦ ?_
  refine pending_bind (hrules.say _ rfl) hs fun _ s hs ↦ ?_
  split
  · refine pending_bind (hrules.searchWeb conversation payload route) hs fun found s hs ↦ ?_
    dsimp only
    split
    · split
      · exact fun _ ↦ hs
      · have hnone : ∀ asked, asked = [] → Prompted [] asked := by
          rintro _ rfl
          exact .inl ⟨[], "", rfl, List.forall_mem_nil _⟩
        refine turnEnds_bind (safe_completeTurn hdistinct hclock hbefore _ _ _ _ hnone hs) fun _ s hs ↦ ?_
        exact turnEnds_bind (safe_sayFinal hs) fun _ _ _ ↦ nofun
    · exact fun _ ↦ hs
  · exact fun _ ↦ hs

theorem safe_turnExtraction (answer : String) {sources : List ChatSource} {s : ConversationDb}
    (hs : TurnAnswered D n before answer sources s) :
    Safe (conversationWorld D) (turning D)
      (TurnEnds D n before fun _ t ↦ TurnAnswered D n before answer sources t) (queueExtraction payload answer)
      s := by
  have hsound : s.Sound D := hs.sound hdistinct hclock hbefore
  refine Safe.tryCatch (safe_writes rfl hsound hsound (fun _ ↦ hs) fun x _ ↦ ?_)
  have hlogged : Safe (conversationWorld D) (turning D)
      (TurnEnds D n before fun _ t ↦ TurnAnswered D n before answer sources t)
      (if x.isException then pure () else raiseChat x : ChatRun Unit) s := by
    split
    · exact hs
    · exact hs.toTurnWriting
  exact ⟨hlogged, hlogged⟩

theorem safe_turnContextAnswer (historyContext : String) (route : ChatRouteDecision)
    (results : List SearchResult) {s : ConversationDb} (hs : TurnPending D n before (· = []) s) :
    Safe (conversationWorld D) (turning D) (TurnEnds D n before fun _ _ ↦ True)
      (contextAnswer P conversation payload fuel (toString (D.uuid (n + 1))) historyContext route results) s := by
  have hrules {A : List String → Prop} := turnRules (A := A) hdistinct hclock hbefore
  rw [contextAnswer]
  refine pending_bind (hrules.sayAll sources_notTerminal) hs fun _ s hs ↦ ?_
  refine pending_bind (hrules.recallMemory payload route) hs fun recalled s hs ↦ ?_
  refine pending_bind (hrules.sayAll sources_notTerminal) hs fun _ s hs ↦ ?_
  refine pending_bind (hrules.say _ rfl) hs fun _ s hs ↦ ?_
  refine pending_bind (hrules.cancelIfDisconnected P) hs fun _ s hs ↦ ?_
  refine safe_generate hdistinct hclock hbefore P payload fuel hs (fun _ ↦ .pure ()) fun generated s hs ↦ ?_
  refine turnEnds_bind (safe_completeTurn hdistinct hclock hbefore _ _ _ _
    (fun asked hasked ↦ .inr ⟨historyContext, route.useWeb, results, recalled, rfl, hasked⟩) hs) fun _ s hs ↦ ?_
  refine turnEnds_bind (Safe.when (fun _ ↦ safe_turnExtraction hdistinct hclock hbefore payload _ hs) fun _ ↦ hs)
    fun _ s hs ↦ ?_
  refine turnEnds_bind (safe_sayAnswered rfl hs) fun _ s hs ↦ ?_
  exact safe_sayFinal hs

/-! ### The handlers -/

omit hdistinct hclock hbefore in
theorem safe_turnError (code message : String) (retryable : Bool) {s : ConversationDb} :
    Safe (conversationWorld D) (turning D) (fun _ _ ↦ True) (yieldError code message retryable) s := by
  rw [yieldError]
  split
  · exact Safe.yieldOne trivial fun _ _ ↦ ⟨trivial, fun _ _ ↦ trivial⟩
  · trivial

theorem safe_markTurn_then (status : ChatMessageStatus) (errorCode : String) {t : ChatRun Unit}
    {s : ConversationDb} (hs : TurnWriting D n before s)
    (ht : ∀ u, Safe (conversationWorld D) (turning D) (fun _ _ ↦ True) t u) :
    Safe (conversationWorld D) (turning D) (fun _ _ ↦ True) (markMessage status errorCode >>= fun _ ↦ t) s := by
  refine Safe.bind (Safe.mono ?_ (safe_markTurn hdistinct hclock hbefore status errorCode hs))
  rintro (x | _) u -
  · trivial
  · exact ht u

theorem safe_turnDocumentHandlers (x : ChatException) {s : ConversationDb} (hs : TurnWriting D n before s) :
    Safe (conversationWorld D) (turning D) (fun _ _ ↦ True) (documentHandlers x) s := by
  cases x with
  | cancelled => exact safe_markTurn_then hdistinct hclock hbefore _ _ hs fun _ ↦ trivial
  | exit => trivial
  | _ => exact safe_markTurn_then hdistinct hclock hbefore _ _ hs fun _ ↦ safe_turnError _ _ _

theorem safe_turnContextHandlers (route : ChatRouteDecision) (x : ChatException) {s : ConversationDb}
    (hs : TurnWriting D n before s) :
    Safe (conversationWorld D) (turning D) (fun _ _ ↦ True) (contextHandlers route x) s := by
  cases x with
  | cancelled => exact safe_markTurn_then hdistinct hclock hbefore _ _ hs fun _ ↦ trivial
  | exit => trivial
  | _ => exact safe_markTurn_then hdistinct hclock hbefore _ _ hs fun _ ↦ safe_turnError _ _ _

/-! ### A turn -/

omit hdistinct hclock in
theorem keeps_begun {op : ChatOp} (hop : op.asks = true) :
    Keeps (conversationWorld D) (turning D) (TurnBegun n before) (fun _ ↦ True) (callChat op) :=
  keeps_asks rfl (fun _ hs ↦ hs.sound hbefore) hop

omit hdistinct hclock in
theorem keeps_authorizeDocuments :
    Keeps (conversationWorld D) (turning D) (TurnBegun n before) (fun _ ↦ True) (authorizeDocuments payload) :=
  .bind (Keeps.when (.raise trivial) _) fun _ ↦ .bind (keeps_begun hbefore rfl) fun _ ↦
    .bind (Keeps.when (.raise trivial) _) fun _ ↦ .pure _

omit hdistinct hclock hbefore in
/-- What a turn does before its messages are written. -/
theorem begun_bind {α : Type} {t : ChatRun α} {f : α → ChatRun Unit} {s : ConversationDb}
    (ht : Keeps (conversationWorld D) (turning D) (TurnBegun n before) (fun _ ↦ True) t) (hs : TurnBegun n before s)
    (hf : ∀ a u, TurnBegun n before u → Safe (conversationWorld D) (turning D) (fun _ _ ↦ True) (f a) u) :
    Safe (conversationWorld D) (turning D) (fun _ _ ↦ True) (t >>= f) s := by
  refine Safe.bind (Safe.mono ?_ (ht s hs))
  rintro (x | a) u hu
  · trivial
  · exact hf a u hu

theorem safe_turnDocuments (hP : P.documentContext = documentContext) (route : ChatRouteDecision)
    {s : ConversationDb} (hs : TurnBegun n before s) :
    Safe (conversationWorld D) (turning D) (fun _ _ ↦ True)
      (streamDocumentAnswer P conversation payload fuel (toString (D.uuid (n + 1))) route) s := by
  rw [streamDocumentAnswer]
  split
  · trivial
  refine begun_bind (keeps_authorizeDocuments hbefore payload) hs fun selected s hs ↦ ?_
  refine Safe.bind (Safe.mono ?_ (safe_pendingMessages hdistinct hclock hbefore payload .documents hs))
  rintro (x | _) u hu
  · trivial
  refine Safe.tryCatch (Safe.mono ?_
    (safe_turnDocumentAnswer hdistinct hclock hbefore P payload fuel hP selected route hu))
  rintro (x | _) v hv
  · exact safe_turnDocumentHandlers hdistinct hclock hbefore x hv
  · trivial

theorem safe_turnContext (route : ChatRouteDecision) {s : ConversationDb} (hs : TurnBegun n before s) :
    Safe (conversationWorld D) (turning D) (fun _ _ ↦ True)
      (streamContextAnswer P conversation payload fuel (toString (D.uuid (n + 1))) route) s := by
  rw [streamContextAnswer]
  split
  · trivial
  refine begun_bind (keeps_begun hbefore rfl) hs fun history s hs ↦ ?_
  refine Safe.bind (Safe.mono ?_ (safe_pendingMessages hdistinct hclock hbefore payload route.mode hs))
  rintro (x | _) u hu
  · trivial
  -- what the first part of the `try` leaves, its handlers included
  have hfound : Safe (conversationWorld D) (turning D)
      (fun r v ↦ match r with
        | .ok found => found.isSome → TurnPending D n before (· = []) v
        | .error _ => True)
      ((contextSearch P conversation payload (toString (D.uuid (n + 1))) route).tryCatch fun x ↦ do
        contextHandlers route x
        pure none) u := by
    refine Safe.tryCatch (Safe.mono ?_
      (safe_turnContextSearch hdistinct hclock hbefore P conversation payload route hu))
    rintro (x | found) v hv
    · refine Safe.bind (Safe.mono ?_ (safe_turnContextHandlers hdistinct hclock hbefore route x hv))
      rintro (y | _) w -
      · trivial
      · exact nofun
    · exact hv
  refine Safe.bind (Safe.mono ?_ hfound)
  rintro (x | found) v hv
  · trivial
  cases found with
  | none => trivial
  | some found =>
    refine Safe.tryCatch (Safe.mono ?_
      (safe_turnContextAnswer hdistinct hclock hbefore P conversation payload fuel _ found.1 found.2 (hv rfl)))
    rintro (x | _) w hw
    · exact safe_turnContextHandlers hdistinct hclock hbefore found.1 x hw
    · trivial

/-- Whatever is thrown in, a turn keeps what is committed and what is said. -/
theorem safe_turn (hP : P.documentContext = documentContext) {s : ConversationDb} (hs : TurnBegun n before s) :
    Safe (conversationWorld D) (listening D) (fun _ _ ↦ True)
      (streamChatAnswer P conversation payload fuel (toString (D.uuid (n + 1)))) s := by
  have hdelegate {t : ChatRun Unit} (ht : Safe (conversationWorld D) (turning D) (fun _ _ ↦ True) t s) :
      Safe (conversationWorld D) (listening D) (fun _ _ ↦ True) t.delegate s :=
    Safe.delegate (K := listening D) (L := turning D) ⟨rfl, rfl, rfl, rfl⟩ (fun _ _ hy ↦ hy)
      (fun _ _ _ _ hu ↦ ⟨hu, fun _ _ ↦ trivial⟩) ht
  rw [streamChatAnswer]
  split
  · exact hdelegate (safe_turnDocuments hdistinct hclock hbefore P conversation payload fuel hP _ hs)
  · exact hdelegate (safe_turnContext hdistinct hclock hbefore P conversation payload fuel _ hs)

end Answers

end Rules

end GenericApp
