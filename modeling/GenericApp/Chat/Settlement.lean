import GenericApp.Chat.ChatParts

/-!
# Every chat answer settles

Inside the `try` of either generator the assistant message is committed as generating, and every way out of the
`try` that a handler sees leads to a commit of its own. What the handlers do not see is the end of the outer
generator: it is closed, or cancelled before its next step has begun, at a `yield` of its own, and the generator
inside is left where it stands. A commit that is interrupted is the other gap: it may have been carried out, and the
interruption is then handled as if it had not.

`answering` is the contract that leaves these out. Under it the request keeps the invariant `InTry` until its
answer is committed, and no later step touches that answer.
-/

namespace GenericApp

open Py

/-! ### States -/

namespace ChatDb

/-- The message is committed as generating. -/
def Generating (s : ChatDb) : Prop := ∃ m, s.committed = some m ∧ m.status = .generating

/-- The answer is committed. -/
def Answered (s : ChatDb) : Prop := ∃ m, s.committed = some m ∧ m.status = .completed

/-- The message is not there, or is committed as completed, failed or cancelled. -/
def Settled (s : ChatDb) : Prop := ∀ m, s.committed = some m → m.status ≠ .generating

/-- Inside the `try`: the message is committed as generating and the session holds it. -/
structure InTry (s : ChatDb) : Prop where
  generating : s.Generating
  held : s.assistant.isSome = true

/-- The two states have the same rows. -/
structure SameRows (s t : ChatDb) : Prop where
  assistant : t.assistant = s.assistant
  committed : t.committed = s.committed

end ChatDb

open ChatDb

theorem settled_iff_not_generating {s : ChatDb} : s.Settled ↔ ¬s.Generating := by
  constructor
  · rintro h ⟨m, hm, hgenerating⟩
    exact h m hm hgenerating
  · exact fun h m hm hgenerating ↦ h ⟨m, hm, hgenerating⟩

theorem ChatDb.Answered.settled {s : ChatDb} (h : s.Answered) : s.Settled := by
  obtain ⟨m, hm, hcompleted⟩ := h
  intro n hn
  obtain rfl := Option.some.inj (hm.symm.trans hn)
  rw [hcompleted]
  decide

section SameRows

variable {s t : ChatDb} (h : SameRows s t)
include h

theorem ChatDb.SameRows.generating (hs : s.Generating) : t.Generating := by
  obtain ⟨m, hm, hgenerating⟩ := hs
  exact ⟨m, h.committed.trans hm, hgenerating⟩

theorem ChatDb.SameRows.inTry (hs : s.InTry) : t.InTry where
  generating := h.generating hs.generating
  held := by rw [h.assistant, hs.held]

theorem ChatDb.SameRows.answered (hs : s.Answered) : t.Answered := by
  obtain ⟨m, hm, hcompleted⟩ := hs
  exact ⟨m, h.committed.trans hm, hcompleted⟩

theorem ChatDb.SameRows.settled (hs : s.Settled) : t.Settled := by
  intro m hm
  exact hs m (h.committed.symm.trans hm)

end SameRows

instance (s : ChatDb) : Decidable s.Generating :=
  decidable_of_iff (s.committed.map ChatMessage.status = some .generating) Option.map_eq_some_iff

/-! ### The contract -/

/-- How a commit may be interrupted. The one of the pending messages is not carried out; the one of the answer is
not carried out either, unless the exception is one that nothing handles; the one of a handler is. -/
def CommitMayRaise (x : ChatException) (late : Bool) (s : ChatDb) : Prop :=
  match s.assistant.map ChatMessage.status with
  | some .completed => late = true ↔ x = .exit
  | some .failed | some .cancelled => late = true
  | some .generating | none => late = false

instance (x : ChatException) (late : Bool) (s : ChatDb) : Decidable (CommitMayRaise x late s) := by
  unfold CommitMayRaise
  cases s.assistant.map ChatMessage.status with
  | none => exact inferInstanceAs (Decidable (late = false))
  | some status =>
    cases status with
    | generating => exact inferInstanceAs (Decidable (late = false))
    | completed => exact inferInstanceAs (Decidable (late = true ↔ x = .exit))
    | failed => exact inferInstanceAs (Decidable (late = true))
    | cancelled => exact inferInstanceAs (Decidable (late = true))

/-- The exceptions that are reckoned with. While the message is generating nothing is raised that no handler
names. -/
def MayRaise (op : ChatOp) (x : ChatException) (late : Bool) (s : ChatDb) : Prop :=
  if op.isCommit then CommitMayRaise x late s else x = .exit → ¬s.Generating

instance (op : ChatOp) (x : ChatException) (late : Bool) (s : ChatDb) : Decidable (MayRaise op x late s) :=
  inferInstanceAs (Decidable (if op.isCommit then CommitMayRaise x late s else x = .exit → ¬s.Generating))

/-- The committed answer stays as it is. -/
def KeepsAnswer (s t : ChatDb) : Prop :=
  ∀ m, s.committed = some m → m.status = .completed → t.committed = some m

theorem KeepsAnswer.refl (s : ChatDb) : KeepsAnswer s s := fun _ hm _ ↦ hm

theorem KeepsAnswer.trans {s t u : ChatDb} (hst : KeepsAnswer s t) (htu : KeepsAnswer t u) :
    KeepsAnswer s u := fun m hm hcompleted ↦ htu m (hst m hm hcompleted) hcompleted

theorem keepsAnswer_of_generating {s t : ChatDb} (hs : s.Generating) : KeepsAnswer s t := by
  obtain ⟨n, hn, hgenerating⟩ := hs
  intro m hm hcompleted
  obtain rfl := Option.some.inj (hn.symm.trans hm)
  rw [hgenerating] at hcompleted
  exact nomatch hcompleted

/-- The contract of the generators inside: they are resumed for their next event and for nothing else. -/
def answering (Y : Type) : Contract ChatOp Y ChatException ChatDb where
  raises := MayRaise
  throws _ _ _ := False
  guarantee := KeepsAnswer
  said _ _ := True
  rely _ := SameRows

/-- The same before the answer. -/
def trying (Y : Type) : Contract ChatOp Y ChatException ChatDb :=
  { answering Y with
    said := fun _ s ↦ s.InTry
    rely := fun _ s t ↦ s.InTry → t.InTry }

/-- The contract of the request: nothing is thrown into it while the message is generating. -/
def settling : Contract ChatOp ChatStreamEvent ChatException ChatDb where
  raises := MayRaise
  throws _ _ s := ¬s.Generating
  guarantee := KeepsAnswer
  said _ _ := True
  rely _ := SameRows

instance (c : ChatRun Unit × ChatDb) (input : Input ChatOp ChatAns ChatException) :
    Decidable (settling.Meets c input) :=
  match c, input with
  | (.call op _, s), .raises x late => inferInstanceAs (Decidable (MayRaise op x late s))
  | (.emit _ _, s), .throws _ => inferInstanceAs (Decidable (¬s.Generating))
  | (.call _ _, _), .returns _ | (.call _ _, _), .resume | (.call _ _, _), .throws _
  | (.emit _ _, _), .returns _ | (.emit _ _, _), .raises _ _ | (.emit _ _, _), .resume
  | (.done _, _), _ | (.raised _, _), _ => isTrue trivial

theorem sameRows_hear (y : ChatStreamEvent) (s : ChatDb) : SameRows s (hear y s) := ⟨rfl, rfl⟩

/-! ### Before the answer -/

theorem ChatOp.Apart.mayRaise {op : ChatOp} (h : op.Apart) {late : Bool} {s : ChatDb} (hs : s.Generating) :
    ¬MayRaise op .exit late s := by
  intro hraise
  rw [MayRaise, h.1] at hraise
  exact hraise rfl hs

/-- An operation apart leaves the state as it is. -/
theorem safe_apart {Y : Type} {spoken : Y → ChatDb → ChatDb} {K : Contract ChatOp Y ChatException ChatDb}
    (hraises : K.raises = MayRaise) (hguarantee : K.guarantee = KeepsAnswer) {op : ChatOp} (hop : op.Apart)
    {s : ChatDb} (hs : s.InTry) :
    Safe (answeringWorld spoken) K (fun r t ↦ t = s ∧ ∀ x, r = .error x → x ≠ .exit)
      (callChat op : Answering Y (ChatAns op)) s := by
  have heffect : (answeringWorld spoken).effect op s = s := hop.2 s
  have hafter (late : Bool) : (answeringWorld spoken).afterRaise op late s = s := by
    rw [World.afterRaise, heffect, ite_self]
  have hkeeps (t : ChatDb) : K.guarantee s t := by
    rw [hguarantee]
    exact keepsAnswer_of_generating hs.generating
  refine Safe.await (hkeeps _) (fun _ ↦ ⟨heffect, fun _ h ↦ by cases h⟩) ?_
  intro x late _ hx
  rw [hraises] at hx
  refine ⟨hkeeps _, hafter late, ?_⟩
  rintro _ hr rfl
  obtain rfl := Except.error.inj hr
  exact hop.mayRaise hs.generating hx

theorem keeps_apart {Y : Type} {spoken : Y → ChatDb → ChatDb} {op : ChatOp} (hop : op.Apart) :
    Keeps (answeringWorld spoken) (trying Y) InTry (· ≠ .exit) (callChat op : Answering Y (ChatAns op)) := by
  intro s hs
  refine Safe.mono ?_ (safe_apart (K := trying Y) rfl rfl hop hs)
  rintro (x | a) t ⟨rfl, hx⟩
  · exact ⟨hs, hx x rfl⟩
  · exact hs

theorem keeps_say {Y : Type} {spoken : Y → ChatDb → ChatDb} (y : Y) :
    Keeps (answeringWorld spoken) (trying Y) InTry (· ≠ .exit) (Coroutine.yieldOne y : Answering Y Unit) :=
  .yieldOne (fun _ hs ↦ hs) (fun _ _ hs ht ↦ ht hs) fun _ _ _ hx ↦ hx.elim

/-- What comes before the answer stays inside the `try`. -/
theorem tryRules : PartRules chatWorld chunkWorld (trying ChatStreamEvent) (trying RagGenerationChunk) InTry (· ≠ .exit) where
  raise _ hx := hx
  call _ hop := keeps_apart (apart_of_asks hop)
  say y _ := keeps_say y
  chunkCall _ hop := keeps_apart (apart_of_asks hop)
  chunkSay z := keeps_say z
  iterated := ⟨rfl, rfl, rfl, rfl⟩
  said _ _ hs := hs
  rely _ _ _ hu _ := hu

/-! ### The answer and the marks -/

/-- How the `try` ends: an answer has been given, or a handler is left to mark the message. What no handler names
is raised only when that is not needed. -/
def TryEnds {α : Type} (Q : α → ChatDb → Prop) : Except ChatException α → ChatDb → Prop
  | .ok a, s => Q a s
  | .error x, s => s.InTry ∧ x ≠ .exit ∨ s.Settled ∧ x = .exit

section Commit

variable {s : ChatDb} {message : ChatMessage}

/-- Where a commit of `message` is due. -/
structure Committing (message : ChatMessage) (s : ChatDb) : Prop where
  generating : s.Generating
  held : s.assistant = some message

theorem Committing.inTry (h : Committing message s) : s.InTry := ⟨h.generating, h.held ▸ rfl⟩

/-- The state in which the attributes have been set. -/
theorem safe_assign (hs : s.InTry) (update : MessageUpdate) :
    Safe chatWorld (answering ChatStreamEvent) (fun r t ↦ r = .ok () ∧ ∃ m, Committing (update.apply m) t)
      (callChat (.assign update)) s := by
  refine Safe.await (keepsAnswer_of_generating hs.generating) (fun _ ↦ ⟨rfl, ?_⟩) (fun _ _ hx _ ↦ nomatch hx)
  obtain ⟨m, hm⟩ := Option.isSome_iff_exists.1 hs.held
  refine ⟨m, hs.generating, ?_⟩
  calc s.assistant.map update.apply = (some m).map update.apply := congrArg _ hm
    _ = some (update.apply m) := rfl

/-- A commit is either carried out or leaves the state as it is. -/
theorem safe_commit (hs : Committing message s) :
    Safe chatWorld (answering ChatStreamEvent) (fun r t ↦ match r with
      | .ok _ => t.committed = some message
      | .error x => ∃ late, CommitMayRaise x late s ∧
        (late = true → t.committed = some message) ∧ (late = false → t = s))
      (callChat .commit) s := by
  have hcommitted : (chatWorld.effect .commit s).committed = some message := hs.held
  refine Safe.await (keepsAnswer_of_generating hs.generating) (fun _ ↦ hcommitted) ?_
  intro x late _ hx
  refine ⟨keepsAnswer_of_generating hs.generating, late, hx, ?_, ?_⟩
  · rintro rfl
    exact hcommitted
  · rintro rfl
    exact rfl

end Commit

theorem safe_completeMessage (answer modelName : String) (generation : Option GenerationResult)
    (sources : List ChatSource) (route : Option ChatRouteDecision) {s : ChatDb} (hs : s.InTry) :
    Safe chatWorld (answering ChatStreamEvent) (TryEnds fun _ t ↦ t.Answered)
      (completeMessage answer modelName generation sources route) s := by
  refine Safe.bind (Safe.mono ?_ (safe_assign hs _))
  rintro _ t ⟨rfl, m, ht⟩
  -- the sources are written, the commit is due
  have hcommit : Safe chatWorld (answering ChatStreamEvent) (TryEnds fun _ t ↦ t.Answered)
      (callChat .commit) t := by
    refine Safe.mono ?_ (safe_commit ht)
    rintro (x | _) u hu
    · obtain ⟨late, hraise, hlate, hearly⟩ := hu
      have hexit : late = true ↔ x = .exit := by
        rw [CommitMayRaise, ht.held] at hraise
        exact hraise
      cases late with
      | true => exact .inr ⟨Answered.settled ⟨_, hlate rfl, rfl⟩, hexit.1 rfl⟩
      | false =>
        obtain rfl := hearly rfl
        exact .inl ⟨ht.inTry, fun hx ↦ nomatch hexit.2 hx⟩
    · exact ⟨_, hu, rfl⟩
  have hsources : ChatOp.Apart (.createSources sources) := ⟨rfl, fun _ ↦ rfl⟩
  refine Safe.bind (Safe.when (fun _ ↦ ?_) fun _ ↦ hcommit)
  refine Safe.mono ?_ (safe_apart rfl rfl hsources ht.inTry)
  rintro (x | _) u ⟨rfl, hx⟩
  · exact .inl ⟨ht.inTry, hx x rfl⟩
  · exact hcommit

theorem safe_markMessage {status : ChatMessageStatus} (hstatus : status = .failed ∨ status = .cancelled)
    (errorCode : String) {s : ChatDb} (hs : s.InTry) :
    Safe chatWorld (answering ChatStreamEvent) (fun _ t ↦ t.Settled) (markMessage status errorCode) s := by
  refine Safe.bind (Safe.mono ?_ (safe_assign hs _))
  rintro _ t ⟨rfl, m, ht⟩
  have hsettled : ∀ u : ChatDb, u.committed =
      some { m with status := status, content := "", errorCode := some errorCode } → u.Settled := by
    intro u hu n hn
    obtain rfl := Option.some.inj (hu.symm.trans hn)
    rcases hstatus with rfl | rfl
    · exact nofun
    · exact nofun
  refine Safe.mono ?_ (safe_commit ht)
  rintro (x | _) u hu
  · obtain ⟨late, hraise, hlate, -⟩ := hu
    have htrue : late = true := by
      rw [CommitMayRaise, ht.held] at hraise
      rcases hstatus with rfl | rfl
      · exact hraise
      · exact hraise
    exact hsettled u (hlate htrue)
  · exact hsettled u hu

theorem safe_queueExtraction (payload : ChatMessageRequest) (answer : String) {s : ChatDb} (hs : s.Answered) :
    Safe chatWorld (answering ChatStreamEvent) (TryEnds fun _ t ↦ t.Answered) (queueExtraction payload answer)
      s := by
  have hafter (late : Bool) :
      chatWorld.afterRaise (.queueMemoryExtraction payload.content answer) late s = s := by
    cases late with
    | false => rfl
    | true => rfl
  refine Safe.tryCatch (Safe.await (KeepsAnswer.refl s) (fun _ ↦ hs) ?_)
  intro x late hx _
  rw [hafter late]
  refine ⟨KeepsAnswer.refl s, ?_⟩
  have hexception : x.isException = true := hx
  dsimp only
  rw [if_pos hexception]
  exact hs

/-! ### The two `try`s -/

section Sequence

variable {α β : Type} {R : β → ChatDb → Prop} {Q : α → ChatDb → Prop} {s : ChatDb}

theorem tryEnds_bind {t : ChatRun β} {f : β → ChatRun α}
    (ht : Safe chatWorld (answering ChatStreamEvent) (TryEnds R) t s)
    (hf : ∀ b u, R b u → Safe chatWorld (answering ChatStreamEvent) (TryEnds Q) (f b) u) :
    Safe chatWorld (answering ChatStreamEvent) (TryEnds Q) (t >>= f) s := by
  refine Safe.bind (Safe.mono ?_ ht)
  rintro (x | b) u hu
  · exact hu
  · exact hf b u hu

/-- What comes before the answer, and what comes then: until the generator is resumed the rows stay as they are. -/
theorem before_bind {t : ChatRun β} {f : β → ChatRun α}
    (ht : Keeps chatWorld (trying ChatStreamEvent) InTry (· ≠ .exit) t) (hs : s.InTry)
    (hf : ∀ b u, u.InTry → Safe chatWorld (answering ChatStreamEvent) (TryEnds Q) (f b) u) :
    Safe chatWorld (answering ChatStreamEvent) (TryEnds Q) (t >>= f) s := by
  have hanswering : Safe chatWorld (answering ChatStreamEvent) (KeptAtEnd InTry (· ≠ .exit)) t s :=
    Safe.weaken (fun _ _ _ ↦ trivial) (fun _ _ _ _ hrows ↦ hrows.inTry) (ht s hs)
  refine tryEnds_bind (R := fun _ u ↦ u.InTry) (Safe.mono ?_ hanswering) hf
  rintro (x | b) u hu
  · exact .inl hu
  · exact hu

/-- An event after the answer. -/
theorem safe_yieldOne (y : ChatStreamEvent) (hs : s.Answered) :
    Safe chatWorld (answering ChatStreamEvent) (TryEnds fun _ t ↦ t.Answered)
      (Coroutine.yieldOne y : ChatRun Unit) s :=
  Safe.yieldOne trivial fun _ ht ↦ ⟨ht.answered hs, fun _ hx ↦ hx.elim⟩

end Sequence

section Answers

variable (P : ChatPorts) (conversation : ChatConversation) (payload : ChatMessageRequest)

theorem safe_documentAnswer (fuel : ℕ) (messageId : String) (selectedDocumentIds : List String)
    (route : ChatRouteDecision) {s : ChatDb} (hs : s.InTry) :
    Safe chatWorld (answering ChatStreamEvent) (TryEnds fun _ t ↦ t.Answered)
      (documentAnswer P payload fuel messageId selectedDocumentIds route) s := by
  rw [documentAnswer]
  refine before_bind (tryRules.say _ rfl) hs fun _ s hs ↦ ?_
  refine before_bind (tryRules.cancelIfDisconnected P) hs fun _ s hs ↦ ?_
  refine before_bind (tryRules.say _ rfl) hs fun _ s hs ↦ ?_
  refine before_bind (tryRules.retrieveChunks payload selectedDocumentIds) hs fun retrieved s hs ↦ ?_
  dsimp only
  split
  · refine tryEnds_bind (safe_completeMessage _ _ _ _ _ hs) fun _ s hs ↦ ?_
    exact safe_yieldOne _ hs
  · refine before_bind (tryRules.sayAll sources_notTerminal) hs fun _ s hs ↦ ?_
    refine before_bind (tryRules.say _ rfl) hs fun _ s hs ↦ ?_
    refine before_bind (tryRules.cancelIfDisconnected P) hs fun _ s hs ↦ ?_
    refine before_bind (tryRules.generateAnswer P payload fuel (fun _ hop ↦ keeps_apart (apart_of_prompts hop)) fun answer ↦ ?_) hs fun generated s hs ↦ ?_
    · split
      · exact .pure ()
      · exact tryRules.apiError _ _ _
    · refine tryEnds_bind (safe_completeMessage _ _ _ _ _ hs) fun _ s hs ↦ ?_
      refine tryEnds_bind (safe_yieldOne _ hs) fun _ s hs ↦ ?_
      exact safe_yieldOne _ hs

/-- There is something to go on with, or the answer has been given. -/
theorem safe_contextSearch (messageId : String) (route : ChatRouteDecision) {s : ChatDb} (hs : s.InTry) :
    Safe chatWorld (answering ChatStreamEvent)
      (TryEnds fun found t ↦ if found.isSome then t.InTry else t.Answered)
      (contextSearch P conversation payload messageId route) s := by
  rw [contextSearch]
  refine before_bind (tryRules.say _ rfl) hs fun _ s hs ↦ ?_
  refine before_bind (tryRules.cancelIfDisconnected P) hs fun _ s hs ↦ ?_
  refine before_bind (tryRules.say _ rfl) hs fun _ s hs ↦ ?_
  split
  · refine before_bind (tryRules.searchWeb conversation payload route) hs fun found s hs ↦ ?_
    dsimp only
    split
    · split
      · exact hs
      · refine tryEnds_bind (safe_completeMessage _ _ _ _ _ hs) fun _ s hs ↦ ?_
        exact tryEnds_bind (safe_yieldOne _ hs) fun _ s hs ↦ hs
    · exact hs
  · exact hs

theorem safe_contextAnswer (fuel : ℕ) (messageId historyContext : String) (route : ChatRouteDecision)
    (results : List SearchResult) {s : ChatDb} (hs : s.InTry) :
    Safe chatWorld (answering ChatStreamEvent) (TryEnds fun _ t ↦ t.Answered)
      (contextAnswer P conversation payload fuel messageId historyContext route results) s := by
  rw [contextAnswer]
  refine before_bind (tryRules.sayAll sources_notTerminal) hs fun _ s hs ↦ ?_
  refine before_bind (tryRules.recallMemory payload route) hs fun recalled s hs ↦ ?_
  refine before_bind (tryRules.sayAll sources_notTerminal) hs fun _ s hs ↦ ?_
  refine before_bind (tryRules.say _ rfl) hs fun _ s hs ↦ ?_
  refine before_bind (tryRules.cancelIfDisconnected P) hs fun _ s hs ↦ ?_
  refine before_bind (tryRules.generateAnswer P payload fuel (fun _ hop ↦ keeps_apart (apart_of_prompts hop)) fun _ ↦ .pure ()) hs fun generated s hs ↦ ?_
  refine tryEnds_bind (safe_completeMessage _ _ _ _ _ hs) fun _ s hs ↦ ?_
  refine tryEnds_bind (Safe.when (fun _ ↦ safe_queueExtraction payload _ hs) fun _ ↦ hs) fun _ s hs ↦ ?_
  refine tryEnds_bind (safe_yieldOne _ hs) fun _ s hs ↦ ?_
  exact safe_yieldOne _ hs

/-! ### The handlers -/

theorem safe_yieldError (code message : String) (retryable : Bool) {s : ChatDb} (hs : s.Settled) :
    Safe chatWorld (answering ChatStreamEvent) (fun _ t ↦ t.Settled) (yieldError code message retryable) s := by
  rw [yieldError]
  split
  · exact Safe.yieldOne trivial fun _ ht ↦ ⟨ht.settled hs, fun _ hx ↦ hx.elim⟩
  · exact hs

theorem safe_mark_then {status : ChatMessageStatus} (hstatus : status = .failed ∨ status = .cancelled)
    (errorCode : String) {t : ChatRun Unit} {s : ChatDb} (hs : s.InTry)
    (ht : ∀ u : ChatDb, u.Settled →
      Safe chatWorld (answering ChatStreamEvent) (fun _ v ↦ v.Settled) t u) :
    Safe chatWorld (answering ChatStreamEvent) (fun _ v ↦ v.Settled)
      (markMessage status errorCode >>= fun _ ↦ t) s := by
  refine Safe.bind (Safe.mono ?_ (safe_markMessage hstatus errorCode hs))
  rintro (x | _) u hu
  · exact hu
  · exact ht u hu

theorem safe_documentHandlers {x : ChatException} {s : ChatDb}
    (h : s.InTry ∧ x ≠ .exit ∨ s.Settled ∧ x = .exit) :
    Safe chatWorld (answering ChatStreamEvent) (fun _ t ↦ t.Settled) (documentHandlers x) s := by
  obtain ⟨hs, hx⟩ | ⟨hs, rfl⟩ := h
  · cases x with
    | cancelled => exact safe_mark_then (.inr rfl) _ hs fun _ hu ↦ hu
    | http e => exact safe_mark_then (.inl rfl) _ hs fun _ hu ↦ safe_yieldError _ _ _ hu
    | exit => exact absurd rfl hx
    | _ => exact safe_mark_then (.inl rfl) _ hs fun _ hu ↦ safe_yieldError _ _ _ hu
  · exact hs

theorem safe_contextHandlers (route : ChatRouteDecision) {x : ChatException} {s : ChatDb}
    (h : s.InTry ∧ x ≠ .exit ∨ s.Settled ∧ x = .exit) :
    Safe chatWorld (answering ChatStreamEvent) (fun _ t ↦ t.Settled) (contextHandlers route x) s := by
  obtain ⟨hs, hx⟩ | ⟨hs, rfl⟩ := h
  · cases x with
    | cancelled => exact safe_mark_then (.inr rfl) _ hs fun _ hu ↦ hu
    | http e => exact safe_mark_then (.inl rfl) _ hs fun _ hu ↦ safe_yieldError _ _ _ hu
    | exit => exact absurd rfl hx
    | _ => exact safe_mark_then (.inl rfl) _ hs fun _ hu ↦ safe_yieldError _ _ _ hu
  · exact hs

/-! ### The generators -/

theorem settled_of_none {s : ChatDb} (hs : s.committed = none) : s.Settled :=
  fun _ hm ↦ nomatch hs.symm.trans hm

/-- Before the messages are written. -/
theorem safe_before {op : ChatOp} (hop : op.isCommit = false) {s : ChatDb} (hs : s.committed = none) :
    Safe chatWorld (answering ChatStreamEvent) (fun r t ↦ match r with
      | .ok _ => t = chatEffect op s
      | .error _ => t.committed = none) (callChat op) s := by
  have hcommitted : (chatEffect op s).committed = none := by
    cases op with
    | commit => exact nomatch hop
    | _ => exact hs
  have hkeeps (t : ChatDb) : KeepsAnswer s t := fun m hm ↦ nomatch hs.symm.trans hm
  refine Safe.await (hkeeps _) (fun _ ↦ rfl) ?_
  intro x late _ _
  refine ⟨hkeeps _, ?_⟩
  cases late with
  | false => exact hs
  | true => exact hcommitted

/-- The `try` is entered, or no message is there. -/
def EntersTry {α : Type} : Except ChatException α → ChatDb → Prop
  | .ok _, s => s.InTry
  | .error _, s => s.committed = none

theorem safe_createPendingMessages (mode : ChatMode) {s : ChatDb} (hs : s.committed = none) :
    Safe chatWorld (answering ChatStreamEvent) EntersTry (createPendingMessages payload mode) s := by
  rw [createPendingMessages]
  refine Safe.bind (Safe.mono ?_ (safe_before rfl hs))
  rintro (x | _) t ht
  · exact ht
  obtain rfl : t = s := ht
  refine Safe.bind (Safe.mono ?_ (safe_before rfl hs))
  rintro (x | _) u hu
  · exact hu
  -- the commit is not carried out if it is interrupted
  have hkeeps (v : ChatDb) : KeepsAnswer u v := by
    subst hu
    exact fun m hm ↦ nomatch hs.symm.trans hm
  subst hu
  refine Safe.await (hkeeps _) (fun _ ↦ ⟨⟨_, rfl, rfl⟩, rfl⟩) ?_
  intro x late _ hlate
  obtain rfl : late = false := hlate
  exact ⟨hkeeps _, hs⟩

theorem safe_authorizeDocuments {s : ChatDb} (hs : s.committed = none) :
    Safe chatWorld (answering ChatStreamEvent) (fun _ t ↦ t.committed = none) (authorizeDocuments payload) s := by
  rw [authorizeDocuments]
  refine Safe.bind (Safe.when (fun _ ↦ hs) fun _ ↦ ?_)
  refine Safe.bind (Safe.mono ?_ (safe_before rfl hs))
  rintro (x | usable) t ht
  · exact ht
  obtain rfl : t = s := ht
  exact Safe.bind (Safe.when (fun _ ↦ hs) fun _ ↦ hs)

theorem safe_streamDocumentAnswer (fuel : ℕ) (messageId : String) (route : ChatRouteDecision) {s : ChatDb}
    (hs : s.committed = none) :
    Safe chatWorld (answering ChatStreamEvent) (fun _ t ↦ t.Settled)
      (streamDocumentAnswer P conversation payload fuel messageId route) s := by
  rw [streamDocumentAnswer]
  split
  · exact settled_of_none hs
  refine Safe.bind (Safe.mono ?_ (safe_authorizeDocuments payload hs))
  rintro (x | selected) t ht
  · exact settled_of_none ht
  refine Safe.bind (Safe.mono ?_ (safe_createPendingMessages payload .documents ht))
  rintro (x | _) u hu
  · exact settled_of_none hu
  refine Safe.tryCatch (Safe.mono ?_ (safe_documentAnswer P payload fuel messageId selected route hu))
  rintro (x | _) v hv
  · exact safe_documentHandlers hv
  · exact hv.settled

theorem safe_streamContextAnswer (fuel : ℕ) (messageId : String) (route : ChatRouteDecision) {s : ChatDb}
    (hs : s.committed = none) :
    Safe chatWorld (answering ChatStreamEvent) (fun _ t ↦ t.Settled)
      (streamContextAnswer P conversation payload fuel messageId route) s := by
  rw [streamContextAnswer]
  split
  · exact settled_of_none hs
  refine Safe.bind (Safe.mono ?_ (safe_before rfl hs))
  rintro (x | history) t ht
  · exact settled_of_none ht
  obtain rfl : t = s := ht
  refine Safe.bind (Safe.mono ?_ (safe_createPendingMessages payload route.mode hs))
  rintro (x | _) u hu
  · exact settled_of_none hu
  -- what the first part of the `try` leaves, its handlers included
  have hfound : Safe chatWorld (answering ChatStreamEvent)
      (fun r v ↦ match r with
        | .ok found => if found.isSome then v.InTry else v.Settled
        | .error _ => v.Settled)
      ((contextSearch P conversation payload messageId route).tryCatch fun x ↦ do
        contextHandlers route x
        pure none) u := by
    refine Safe.tryCatch (Safe.mono ?_ (safe_contextSearch P conversation payload messageId route hu))
    rintro (x | found) v hv
    · refine Safe.bind (Safe.mono ?_ (safe_contextHandlers route hv))
      rintro (y | _) w hw
      · exact hw
      · exact hw
    · cases found with
      | none => exact hv.settled
      | some found => exact hv
  refine Safe.bind (Safe.mono ?_ hfound)
  rintro (x | found) v hv
  · exact hv
  cases found with
  | none => exact hv
  | some found =>
    refine Safe.tryCatch (Safe.mono ?_
      (safe_contextAnswer P conversation payload fuel messageId _ found.1 found.2 hv))
    rintro (x | _) w hw
    · exact safe_contextHandlers found.1 hw
    · exact hw.settled

/-- What is thrown in goes no further than the outer generator. -/
theorem safe_streamChatAnswer (fuel : ℕ) (messageId : String) {s : ChatDb} (hs : s.committed = none) :
    Safe chatWorld settling (fun _ t ↦ t.Settled) (streamChatAnswer P conversation payload fuel messageId) s := by
  have hdelegate {t : ChatRun Unit}
      (ht : Safe chatWorld (answering ChatStreamEvent) (fun _ t ↦ t.Settled) t s) :
      Safe chatWorld settling (fun _ t ↦ t.Settled) t.delegate s := by
    refine Safe.delegate (K := settling) (L := answering ChatStreamEvent) ⟨rfl, rfl, rfl, rfl⟩ (fun _ _ _ ↦ trivial) ?_ ht
    exact fun y s u _ hrows ↦ ⟨hrows, fun _ hthrows ↦ hrows.settled (settled_iff_not_generating.2 hthrows)⟩
  rw [streamChatAnswer]
  split
  · exact hdelegate (safe_streamDocumentAnswer P conversation payload fuel messageId _ hs)
  · exact hdelegate (safe_streamContextAnswer P conversation payload fuel messageId _ hs)

end Answers

/-- As long as nothing is thrown into the generator while the message is generating, and no interrupted commit
deceives the handlers, the message is settled when the generator has ended, and an answer that has been committed
stays. -/
theorem chat_answer_settles (P : ChatPorts) (conversation : ChatConversation) (payload : ChatMessageRequest)
    (fuel : ℕ) (messageId : String) {c : ChatRun Unit × ChatDb}
    (h : (chatWorld.machine (streamChatAnswer P conversation payload fuel messageId) ChatDb.empty).Reachable
      settling.Meets c) :
    (c.1.Over → c.2.Settled) ∧
      ∀ d, (chatWorld.machine (streamChatAnswer P conversation payload fuel messageId) ChatDb.empty).Later
        settling.Meets c d → KeepsAnswer c.2 d.2 := by
  obtain ⟨c₀, rfl, hrun⟩ := h
  have hstart : Safe chatWorld settling (fun _ t ↦ t.Settled)
      (streamChatAnswer P conversation payload fuel messageId) ChatDb.empty :=
    safe_streamChatAnswer P conversation payload fuel messageId rfl
  have hlater {t u : ChatRun Unit} {s v : ChatDb} (hsafe : Safe chatWorld settling (fun _ t ↦ t.Settled) t s)
      (hrun : (chatWorld.machine (streamChatAnswer P conversation payload fuel messageId)
        ChatDb.empty).Later settling.Meets (t, s) (u, v)) :=
    Safe.later (fun y s ↦ sameRows_hear y s) (fun _ _ m hm _ ↦ hm) KeepsAnswer.refl
      (fun _ _ _ ↦ KeepsAnswer.trans) hsafe hrun
  obtain ⟨hsafe, -⟩ := hlater hstart hrun
  refine ⟨fun hover ↦ ?_, fun d hd ↦ (hlater hsafe hd).2⟩
  obtain ⟨-, hsettled⟩ := hsafe.ended hover
  exact hsettled

/-! ### A reader who leaves -/

section Reader

/-- A conversation without documents, and a service that polls its client. -/
def greetedChat : ChatConversation := ⟨"c", none, .auto, false, false⟩

def greetingMessage : ChatMessageRequest := { content := "hi", mode := .general }

def polledPorts : ChatPorts where
  maxHistoryMessages := 20
  maxMessageBytes := 32768
  streams := true
  polled := true
  decide payload _ := { mode := payload.mode, reason := "explicit_mode" }
  trimChunks := id
  documentContext _ _ := ""
  validCitations _ _ := true

/-- Nothing is found, and the client has gone. -/
def goneAnswers : (op : ChatOp) → ChatAns op
  | .listRecentMessages _ => []
  | .listIndexedDocuments _ => []
  | .disconnected => true
  | .search _ => []
  | .recallForPrompt _ => ⟨"", [], false⟩
  | .retrieve _ _ => { chunks := [] }
  | .nextChunk _ _ => .stop
  | .runRagAnswer _ _ => ⟨"", "", none, none, none⟩
  | .createUserMessage .. | .createAssistantMessage _ | .createSources _ | .commit
  | .enforceWebSearchLimits | .enterWebSearchSlot | .enterProviderSlot | .closeStream | .assign _
  | .queueMemoryExtraction _ _ => ()

/-- The messages are written, and the first event is out. -/
def firstEvent : List (Input ChatOp ChatAns ChatException) := List.replicate 4 (.returns goneAnswers)

abbrev greeting : ChatRun Unit × ChatDb :=
  (streamChatAnswer polledPorts greetedChat greetingMessage 1 "m", ChatDb.empty)

abbrev greetingRuns := chatWorld.machine greeting.1 greeting.2

/-- How a run stands: whether the generator has ended, and the status that is committed. -/
def outcome (c : ChatRun Unit × ChatDb) : Bool × Option ChatMessageStatus :=
  (match c.1 with
    | .done _ | .raised _ => true
    | .call _ _ | .emit _ _ => false,
    c.2.committed.map ChatMessage.status)

theorem over_of_outcome {c : ChatRun Unit × ChatDb} {status : Option ChatMessageStatus}
    (h : outcome c = (true, status)) : c.1.Over ∧ c.2.committed.map ChatMessage.status = status := by
  obtain ⟨t, s⟩ := c
  obtain ⟨hover, hstatus⟩ := Prod.mk.inj h
  refine ⟨?_, hstatus⟩
  cases t with
  | done a => trivial
  | raised x => trivial
  | call op k => exact nomatch hover
  | emit y k => exact nomatch hover

/-- The client is found to be gone, and the message is marked. -/
theorem chat_answer_settles_gone : ∃ c, greetingRuns.Reachable settling.Meets c ∧ c.1.Over ∧
    c.2.committed.map ChatMessage.status = some .cancelled ∧ c.2.Settled := by
  have hrun : (greetingRuns.run settling.Meets greeting
      (firstEvent ++ [.resume, .returns goneAnswers, .returns goneAnswers, .returns goneAnswers])).map outcome =
        some (true, some .cancelled) := by
    decide +kernel
  obtain ⟨c, hc, houtcome⟩ := Option.map_eq_some_iff.1 hrun
  obtain ⟨hover, hstatus⟩ := over_of_outcome houtcome
  have hreachable : greetingRuns.Reachable settling.Meets c := ⟨greeting, rfl, Machine.later_of_run hc⟩
  exact ⟨c, hreachable, hover, hstatus,
    (chat_answer_settles polledPorts greetedChat greetingMessage 1 "m" hreachable).1 hover⟩

/-- The reader closes the generator at its first event. -/
theorem closed_answer_stays_generating :
    ¬∀ c, greetingRuns.Reachable Machine.anyStep c → c.1.Over → c.2.Settled := by
  intro h
  have hrun : (greetingRuns.run Machine.anyStep greeting (firstEvent ++ [.throws .exit])).map outcome =
      some (true, some .generating) := by
    decide +kernel
  obtain ⟨c, hc, houtcome⟩ := Option.map_eq_some_iff.1 hrun
  obtain ⟨hover, hstatus⟩ := over_of_outcome houtcome
  obtain ⟨m, hm, hgenerating⟩ := Option.map_eq_some_iff.1 hstatus
  exact h c ⟨greeting, rfl, Machine.later_of_run hc⟩ hover m hm hgenerating

end Reader

end GenericApp
