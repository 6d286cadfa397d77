import GenericApp.Chat.ChatParts

/-!
# Streamed tokens add up to the answer

A delta of the provider is cut into batches, each yielded as a token. The cut is at a space if there is one behind
the first character and within the bound, and at the bound otherwise, so that every batch has a character and none
has more than the bound.

What has been said so far is part of the state here (`Told`). While the answer is generated, the tokens that have
been said are the deltas that have been collected (`Adding`), so that the final event and the message that is
committed have what was streamed.
-/

namespace GenericApp

open Py

/-! ### Batches -/

section Batches

variable {maxChars : ℕ}

theorem tokenBoundary_le (maxChars : ℕ) (remainder : List Char) : tokenBoundary maxChars remainder ≤ maxChars := by
  have hlength : (remainder.take (maxChars + 1)).length ≤ maxChars + 1 := List.length_take_le _ _
  rw [tokenBoundary]
  split
  · split
    · exact le_rfl
    · omega
  · exact le_rfl

theorem tokenBoundary_pos (hmax : 1 ≤ maxChars) (remainder : List Char) : 1 ≤ tokenBoundary maxChars remainder := by
  rw [tokenBoundary]
  split
  · split
    · exact hmax
    · omega
  · exact hmax

/-- The induction is on the length that the loop is given for what is left. -/
theorem tokenBatchesFrom_spec (hmax : 1 ≤ maxChars) (fuel : ℕ) (remainder : List Char)
    (hfuel : remainder.length ≤ fuel) :
    (tokenBatchesFrom maxChars fuel remainder).flatten = remainder ∧
      ∀ b ∈ tokenBatchesFrom maxChars fuel remainder, b ≠ [] ∧ b.length ≤ maxChars := by
  fun_induction tokenBatchesFrom maxChars fuel remainder with
  | case1 remainder => exact ⟨(List.length_eq_zero_iff.1 (Nat.le_zero.1 hfuel)).symm, nofun⟩
  | case2 fuel => exact ⟨rfl, nofun⟩
  | case3 fuel remainder hne hle =>
    refine ⟨by rw [List.flatten_singleton], fun b hb ↦ ?_⟩
    rw [List.mem_singleton.1 hb]
    exact ⟨hne, hle⟩
  | case4 fuel remainder hne hlong ih =>
    have hpos := tokenBoundary_pos hmax remainder
    have hle := tokenBoundary_le maxChars remainder
    obtain ⟨hjoin, hbatches⟩ := ih (by rw [List.length_drop]; omega)
    refine ⟨by rw [List.flatten_cons, hjoin, List.take_append_drop], fun b hb ↦ ?_⟩
    rcases List.mem_cons.1 hb with rfl | hb
    · refine ⟨fun hnil ↦ ?_, (List.length_take_le _ _).trans hle⟩
      have hlength := congrArg List.length hnil
      rw [List.length_take, List.length_nil] at hlength
      omega
    · exact hbatches b hb

/-- The loop ends: with more than the length it does the same. -/
theorem tokenBatchesFrom_fuel (hmax : 1 ≤ maxChars) (fuel : ℕ) (remainder : List Char) (more : ℕ)
    (hfuel : remainder.length ≤ fuel) :
    tokenBatchesFrom maxChars (fuel + more) remainder = tokenBatchesFrom maxChars fuel remainder := by
  induction fuel generalizing remainder with
  | zero =>
    obtain rfl := List.length_eq_zero_iff.1 (Nat.le_zero.1 hfuel)
    cases 0 + more with
    | zero => rfl
    | succ n => rfl
  | succ fuel ih =>
    have hpos := tokenBoundary_pos hmax remainder
    have hlength : (remainder.drop (tokenBoundary maxChars remainder)).length ≤ fuel := by
      rw [List.length_drop]
      omega
    rw [Nat.succ_add, tokenBatchesFrom, tokenBatchesFrom, ih _ hlength]

theorem join_boundedTokenBatches (hmax : 1 ≤ maxChars) (text : String) :
    String.join (boundedTokenBatches maxChars text) = text := by
  rw [boundedTokenBatches]
  split
  · rw [String.join_cons, String.join_nil, String.append_empty]
  · refine String.toList_injective ?_
    have hjoin := (tokenBatchesFrom_spec hmax _ text.toList le_rfl).1
    rw [String.toList_join, List.flatMap_map]
    simpa [List.flatMap_def] using hjoin

theorem mem_boundedTokenBatches (hmax : 1 ≤ maxChars) {text batch : String}
    (h : batch ∈ boundedTokenBatches maxChars text) :
    batch.length ≤ maxChars ∧ (text ≠ "" → batch ≠ "") := by
  rw [boundedTokenBatches] at h
  split at h
  · next hle =>
    rw [List.mem_singleton.1 h]
    exact ⟨hle, id⟩
  · obtain ⟨b, hb, rfl⟩ := List.mem_map.1 h
    obtain ⟨hne, hle⟩ := (tokenBatchesFrom_spec hmax _ text.toList le_rfl).2 b hb
    refine ⟨by rwa [String.length_ofList], fun _ hempty ↦ hne ?_⟩
    rw [← String.toList_ofList (l := b), hempty, String.toList_empty]

end Batches

/-! ### What has been said -/

/-- The rows of a request, and the events that it has yielded. -/
abbrev Told := ChatDb × List ChatStreamEvent

def ChatStreamEvent.tokenText : ChatStreamEvent → String
  | .token text => text
  | .status _ | .source _ | .final .. | .error .. | .cancelled _ => ""

/-- The texts of the token events, one after the other. -/
def tokenText (events : List ChatStreamEvent) : String := String.join (events.map ChatStreamEvent.tokenText)

/-- The answer is being generated, or has been. -/
def Generated (events : List ChatStreamEvent) : Prop := .status .generating ∈ events

instance (events : List ChatStreamEvent) : Decidable (Generated events) :=
  inferInstanceAs (Decidable (_ ∈ events))

/-- A world in which nothing that is said is forgotten. -/
def tellingWorld {Y : Type} (spoken : Y → Told → Told) : World ChatOp Y ChatException Told where
  effect op s := (chatEffect op s.1, s.2)
  raisable op x := chatRaisable op x = true
  spoken := spoken

instance {Y : Type} (spoken : Y → Told → Told) (op : ChatOp) (x : ChatException) :
    Decidable ((tellingWorld spoken).raisable op x) :=
  inferInstanceAs (Decidable (chatRaisable op x = true))

def utter (y : ChatStreamEvent) (s : Told) : Told := (hear y s.1, s.2 ++ [y])

abbrev toldWorld : World ChatOp ChatStreamEvent ChatException Told := tellingWorld utter

/-- The tokens that have been said, stripped, are the answer, and so is what is committed. -/
def AddsUp (answer : String) (s : Told) : Prop :=
  strip (tokenText s.2) = answer ∧ s.1.committed.map ChatMessage.content = some answer

/-- Where a final event is yielded after a generation, the tokens add up to its answer. -/
def SaysAnswer (y : ChatStreamEvent) (s : Told) : Prop :=
  ∀ messageId answer sources, y = .final messageId answer sources → Generated s.2 → AddsUp answer s

/-- A call says nothing, and the session does not lose the assistant message. -/
def Hushed (s t : Told) : Prop := t.2 = s.2 ∧ (s.1.assistant.isSome = true → t.1.assistant.isSome = true)

/-- The contract of the generator of the events: any call may raise, and so may any resumption. -/
def telling : Contract ChatOp ChatStreamEvent ChatException Told where
  raises _ _ _ _ := True
  throws _ _ _ := True
  guarantee := Hushed
  said := SaysAnswer
  rely y s t := t = utter y s

/-- And of the generator of the chunks. -/
def tellingChunks : Contract ChatOp RagGenerationChunk ChatException Told where
  raises _ _ _ _ := True
  throws _ _ _ := True
  guarantee := Hushed
  said _ _ := True
  rely _ _ _ := True

theorem tokenText_concat (events : List ChatStreamEvent) (y : ChatStreamEvent) :
    tokenText (events ++ [y]) = tokenText events ++ y.tokenText := by
  simp [tokenText]

theorem isSome_chatEffect {op : ChatOp} {db : ChatDb} (h : db.assistant.isSome = true) :
    (chatEffect op db).assistant.isSome = true := by
  cases op with
  | createAssistantMessage message => rfl
  | assign update => exact Option.isSome_map.trans h
  | _ => exact h

theorem hushed_effect (op : ChatOp) (s : Told) : Hushed s (chatEffect op s.1, s.2) := ⟨rfl, isSome_chatEffect⟩

theorem hushed_afterRaise {Y : Type} (spoken : Y → Told → Told) (op : ChatOp) (late : Bool) (s : Told) :
    Hushed s ((tellingWorld spoken).afterRaise op late s) := by
  cases late with
  | false => exact ⟨rfl, id⟩
  | true => exact hushed_effect op s

section Telling

variable {α β : Type} {I : Told → Prop} {Q : Except ChatException α → Told → Prop} {s : Told}

/-- A call keeps what silence keeps. -/
theorem keeps_call {Y : Type} {spoken : Y → Told → Told} {K : Contract ChatOp Y ChatException Told}
    (hK : K.guarantee = Hushed) (hI : ∀ s t, Hushed s t → I s → I t) (op : ChatOp) :
    Keeps (tellingWorld spoken) K I (fun _ ↦ True) (callChat op : Answering Y (ChatAns op)) := by
  refine .await (fun s hs ↦ ?_) fun s x late hs _ _ ↦ ?_
  · have heffect := hushed_effect op s
    exact ⟨hK ▸ heffect, hI _ _ heffect hs⟩
  · have hafter := hushed_afterRaise spoken op late s
    exact ⟨hK ▸ hafter, hI _ _ hafter hs, trivial⟩

/-- What asks keeps what silence keeps. -/
theorem tellingRules (hI : ∀ s t, Hushed s t → I s → I t) : AskRules toldWorld telling I fun _ ↦ True :=
  ⟨fun _ _ ↦ trivial, fun op _ ↦ keeps_call rfl hI op⟩

/-- An event that is not final may be said. -/
theorem keeps_tell {y : ChatStreamEvent} (hy : y.isTerminal = false) (hI : ∀ s, I s → I (utter y s)) :
    Keeps toldWorld telling I (fun _ ↦ True) (Coroutine.yieldOne y : ChatRun Unit) := by
  refine .yieldOne (fun s _ messageId answer sources hfinal ↦ ?_) (fun s t hs ht ↦ ?_) fun _ _ _ _ ↦ trivial
  · rw [hfinal] at hy
    exact nomatch hy
  · rw [ht]
    exact hI s hs

/-- Nothing is asked of what follows an exception. -/
theorem telling_bind {t : ChatRun β} {f : β → ChatRun α} (ht : Keeps toldWorld telling I (fun _ ↦ True) t)
    (hs : I s) (herror : ∀ x u, Q (.error x) u) (hf : ∀ b u, I u → Safe toldWorld telling Q (f b) u) :
    Safe toldWorld telling Q (t >>= f) s := by
  refine Safe.bind (Safe.mono ?_ (ht s hs))
  rintro (x | b) u hu
  · exact herror x u
  · exact hf b u hu

end Telling

/-! ### What follows an exception -/

theorem keeps_anything {t : ChatRun Unit} {s : Told} (h : Keeps toldWorld telling (fun _ ↦ True) (fun _ ↦ True) t) :
    Safe toldWorld telling (fun _ _ ↦ True) t s := Safe.mono (fun _ _ _ ↦ trivial) (h s trivial)

theorem tells_markMessage (status : ChatMessageStatus) (errorCode : String) :
    Keeps toldWorld telling (fun _ ↦ True) (fun _ ↦ True) (markMessage status errorCode) :=
  .bind (keeps_call rfl (fun _ _ _ h ↦ h) _) fun _ ↦ keeps_call rfl (fun _ _ _ h ↦ h) _

theorem tells_yieldError (code message : String) (retryable : Bool) :
    Keeps toldWorld telling (fun _ ↦ True) (fun _ ↦ True) (yieldError code message retryable) := by
  rw [yieldError]
  split
  · refine .yieldOne (fun s _ messageId answer sources hfinal ↦ nomatch hfinal) (fun _ _ _ _ ↦ trivial)
      fun _ _ _ _ ↦ trivial
  · exact .raise trivial

theorem tells_documentHandlers (x : ChatException) :
    Keeps toldWorld telling (fun _ ↦ True) (fun _ ↦ True) (documentHandlers x) := by
  cases x with
  | cancelled => exact .bind (tells_markMessage _ _) fun _ ↦ .raise trivial
  | exit => exact .raise trivial
  | _ => exact .bind (tells_markMessage _ _) fun _ ↦ tells_yieldError _ _ _

theorem tells_contextHandlers (route : ChatRouteDecision) (x : ChatException) :
    Keeps toldWorld telling (fun _ ↦ True) (fun _ ↦ True) (contextHandlers route x) := by
  cases x with
  | cancelled => exact .bind (tells_markMessage _ _) fun _ ↦ .raise trivial
  | exit => exact .raise trivial
  | _ => exact .bind (tells_markMessage _ _) fun _ ↦ tells_yieldError _ _ _

/-! ### What comes before the generation -/

/-- Neither a token nor that the answer is being generated has been said. -/
def Unsaid (s : Told) : Prop := tokenText s.2 = "" ∧ ¬Generated s.2

/-- The same, and the assistant message is there. -/
def Preparing (s : Told) : Prop := Unsaid s ∧ s.1.assistant.isSome = true

/-- The tokens that have been said are these, and the assistant message is there. -/
def Adding (said : String) (s : Told) : Prop := tokenText s.2 = said ∧ s.1.assistant.isSome = true

theorem Unsaid.hushed {s t : Told} (h : Hushed s t) (hs : Unsaid s) : Unsaid t := by
  rwa [Unsaid, h.1]

theorem Preparing.hushed {s t : Told} (h : Hushed s t) (hs : Preparing s) : Preparing t :=
  ⟨hs.1.hushed h, h.2 hs.2⟩

theorem Adding.hushed {said : String} {s t : Told} (h : Hushed s t) (hs : Adding said s) : Adding said t := by
  rw [Adding, h.1]
  exact ⟨hs.1, h.2 hs.2⟩

theorem Adding.utter {said : String} {s : Told} (hs : Adding said s) (y : ChatStreamEvent) :
    Adding (said ++ y.tokenText) (utter y s) :=
  ⟨(tokenText_concat s.2 y).trans (congrArg (· ++ y.tokenText) hs.1), hs.2⟩

/-- An event that is no token and does not say that the answer is being generated. -/
theorem keeps_prepare {y : ChatStreamEvent} (hy : y.isTerminal = false) (htoken : y.tokenText = "")
    (hstatus : y ≠ .status .generating) :
    Keeps toldWorld telling Preparing (fun _ ↦ True) (Coroutine.yieldOne y : ChatRun Unit) := by
  refine keeps_tell hy fun s hs ↦ ⟨⟨?_, ?_⟩, hs.2⟩
  · show tokenText (s.2 ++ [y]) = ""
    rw [tokenText_concat, htoken, hs.1.1, String.append_empty]
  · intro hmem
    rcases List.mem_append.1 hmem with hmem | hmem
    · exact hs.1.2 hmem
    · exact hstatus (List.mem_singleton.1 hmem).symm

theorem keeps_prepareSources (sources : List ChatSource) :
    Keeps toldWorld telling Preparing (fun _ ↦ True) (Coroutine.yieldAll (sources.map .source) : ChatRun Unit) := by
  refine .yieldAll fun y hy ↦ ?_
  obtain ⟨source, -, rfl⟩ := List.mem_map.1 hy
  exact keeps_prepare rfl rfl nofun

/-- A final event before any generation. -/
theorem safe_finalUnsaid {messageId answer : String} {sources : List ChatSource} {s : Told} (hs : Unsaid s)
    {Q : Except ChatException Unit → Told → Prop} (hQ : ∀ r t, Q r t) :
    Safe toldWorld telling Q (Coroutine.yieldOne (.final messageId answer sources) : ChatRun Unit) s :=
  Safe.yieldOne (fun _ _ _ _ hgenerated ↦ absurd hgenerated hs.2) fun t _ ↦ ⟨hQ _ t, fun _ _ ↦ hQ _ t⟩

/-- The assistant message is there when the pending messages have been written. -/
theorem tells_createPendingMessages {α : Type} {Q : Except ChatException α → Told → Prop}
    (payload : ChatMessageRequest) (mode : ChatMode) {f : Unit → ChatRun α} {s : Told} (hs : Unsaid s)
    (herror : ∀ x u, Q (.error x) u) (hf : ∀ u, Preparing u → Safe toldWorld telling Q (f ()) u) :
    Safe toldWorld telling Q (createPendingMessages payload mode >>= f) s := by
  have hcreate : Safe toldWorld telling (fun r u ↦ match r with
      | .ok _ => Preparing u
      | .error _ => True) (createPendingMessages payload mode) s := by
    refine telling_bind (keeps_call rfl (fun _ _ h ↦ Unsaid.hushed h) _) hs (fun _ _ ↦ trivial) fun _ s hs ↦ ?_
    refine Safe.bind (Safe.await (hushed_effect _ s) (fun _ ↦ ?_) fun x late _ _ ↦
      ⟨hushed_afterRaise _ _ late s, trivial⟩)
    refine Safe.mono ?_ (keeps_call rfl (fun _ _ h ↦ Preparing.hushed h) .commit _ ⟨hs.hushed (hushed_effect _ s), rfl⟩)
    rintro (x | _) u hu
    · trivial
    · exact hu
  refine Safe.bind (Safe.mono ?_ hcreate)
  rintro (x | _) u hu
  · exact herror x u
  · exact hf u hu

/-- An answer that is given without a generation. -/
theorem keeps_completeUnsaid (answer modelName : String) (generation : Option GenerationResult)
    (sources : List ChatSource) (route : Option ChatRouteDecision) :
    Keeps toldWorld telling Preparing (fun _ ↦ True)
      (completeMessage answer modelName generation sources route) := by
  have hcall : ∀ op, Keeps toldWorld telling Preparing (fun _ ↦ True) (callChat op : ChatRun (ChatAns op)) :=
    keeps_call rfl fun _ _ h ↦ Preparing.hushed h
  exact .bind (hcall _) fun _ ↦ .bind ((hcall _).when _) fun _ ↦ hcall _

/-! ### The generation -/

/-- The tokens of a delta are added one by one. -/
theorem safe_yieldTokens (batches : List String) {said : String} {s : Told} (hs : Adding said s) :
    Safe toldWorld telling (fun r u ↦ match r with
      | .ok _ => Adding (said ++ String.join batches) u
      | .error _ => True) (Coroutine.yieldAll (batches.map .token) : ChatRun Unit) s := by
  induction batches generalizing said s with
  | nil =>
    show Adding (said ++ String.join []) s
    rwa [String.join_nil, String.append_empty]
  | cons batch batches ih =>
    refine Safe.bind (Safe.yieldOne (fun _ _ _ hfinal ↦ nomatch hfinal) fun u hu ↦ ⟨?_, fun _ _ ↦ trivial⟩)
    rw [hu, String.join_cons, ← String.append_assoc]
    exact ih (hs.utter (.token batch))

theorem safe_collectChunk (collected : Collected) (chunk : RagGenerationChunk) {s : Told}
    (hs : Adding (String.join collected.answerParts) s) :
    Safe toldWorld telling (fun r u ↦ match r with
      | .ok collected => Adding (String.join collected.answerParts) u
      | .error _ => True) (collectChunk collected chunk) s := by
  rw [collectChunk]
  split
  · exact hs
  · refine Safe.bind (Safe.mono ?_ (safe_yieldTokens (boundedTokenBatches 256 chunk.text) hs))
    rintro (x | _) u hu
    · trivial
    · show Adding (String.join (collected.answerParts ++ [chunk.text])) u
      rw [join_boundedTokenBatches (by decide)] at hu
      rwa [String.join_append, String.join_cons, String.join_nil, String.append_empty]

/-- **A generation returns what was streamed**, stripped. -/
theorem safe_generateAnswer (P : ChatPorts) (payload : ChatMessageRequest) (fuel : ℕ) (combinedContext : String)
    {validate : String → ChatRun Unit}
    (hvalidate : ∀ answer I, (∀ s t, Hushed s t → I s → I t) →
      Keeps toldWorld telling I (fun _ ↦ True) (validate answer)) {s : Told} (hs : Adding "" s) :
    Safe toldWorld telling (fun r u ↦ match r with
      | .ok (answer, _) => ∃ said, Adding said u ∧ strip said = answer
      | .error _ => True) (generateAnswer P payload fuel combinedContext validate) s := by
  have hchunks : Safe (tellingWorld fun _ s ↦ s) tellingChunks (KeptAtEnd (fun _ ↦ True) fun _ ↦ True)
      (generationEvents P fuel payload.content combinedContext) s := by
    have hcall : ∀ op, Keeps (tellingWorld fun _ s ↦ s) tellingChunks (fun _ ↦ True) (fun _ ↦ True)
        (callChat op : ChunkRun (ChatAns op)) := keeps_call rfl fun _ _ _ h ↦ h
    refine AskRules.generationEvents P ⟨fun _ _ ↦ trivial, fun op _ ↦ hcall op⟩ fuel payload.content
      (fun op _ ↦ hcall op) (fun z ↦ ?_) s trivial
    exact .yieldOne (fun _ _ ↦ trivial) (fun _ _ _ _ ↦ trivial) fun _ _ _ _ ↦ trivial
  have hstart : Adding (String.join ({} : Collected).answerParts) s := by
    show Adding (String.join []) s
    rwa [String.join_nil]
  have hiterated : telling.Iterated toldWorld tellingChunks (tellingWorld fun _ s ↦ s) := ⟨rfl, rfl, rfl, rfl⟩
  refine Safe.bind (Safe.foldEachOver hiterated
    (I := fun (collected : Collected) u ↦ Adding (String.join collected.answerParts) u)
    (fun _ _ _ h ↦ Adding.hushed h) ?_ ?_ hchunks hstart)
  · intro collected chunk s hs _
    refine Safe.mono ?_ (safe_collectChunk collected chunk hs)
    rintro (x | collected) u hu
    · trivial
    · exact ⟨hu, trivial⟩
  · rintro collected s (x | _) hs -
    · trivial
    · dsimp only
      have hkept : ∀ s t, Hushed s t → Adding (String.join collected.answerParts) s →
          Adding (String.join collected.answerParts) t := fun _ _ h ↦ Adding.hushed h
      refine telling_bind (((tellingRules hkept).apiError _ _ _).when _) hs (fun _ _ ↦ trivial) fun _ s hs ↦ ?_
      refine telling_bind (hvalidate _ _ hkept) hs (fun _ _ ↦ trivial) fun _ s hs ↦ ?_
      cases collected.generation with
      | none => trivial
      | some generation => exact ⟨_, hs, rfl⟩

/-! ### The answer -/

/-- The tokens, stripped, are the answer, and it is set on the message in the session. -/
def AnswerHeld (answer : String) (s : Told) : Prop :=
  strip (tokenText s.2) = answer ∧ s.1.assistant.map ChatMessage.content = some answer

/-- An operation that writes nothing to the assistant message adds up to the same. -/
theorem keeps_addsUp {answer : String} {op : ChatOp} (hop : ∀ db, chatEffect op db = db) :
    Keeps toldWorld telling (AddsUp answer) (fun _ ↦ True) (callChat op : ChatRun (ChatAns op)) := by
  have heffect : ∀ s : Told, AddsUp answer s → AddsUp answer (chatEffect op s.1, s.2) := fun s hs ↦ by
    rwa [hop]
  refine .await (fun s hs ↦ ⟨hushed_effect op s, heffect s hs⟩) fun s x late hs _ _ ↦
    ⟨hushed_afterRaise _ op late s, ?_, trivial⟩
  cases late with
  | false => exact hs
  | true => exact heffect s hs

theorem tells_completeMessage {α : Type} {Q : Except ChatException α → Told → Prop} {answer said : String}
    (modelName : String) (generation : Option GenerationResult) (sources : List ChatSource)
    (route : Option ChatRouteDecision) {f : Unit → ChatRun α} {s : Told} (hs : Adding said s)
    (hanswer : strip said = answer) (herror : ∀ x u, Q (.error x) u)
    (hf : ∀ u, AddsUp answer u → Safe toldWorld telling Q (f ()) u) :
    Safe toldWorld telling Q (completeMessage answer modelName generation sources route >>= f) s := by
  have hcomplete : Safe toldWorld telling (fun r u ↦ match r with
      | .ok _ => AddsUp answer u
      | .error _ => True) (completeMessage answer modelName generation sources route) s := by
    refine Safe.bind (Safe.await (hushed_effect _ s) (fun _ ↦ ?_) fun x late hx _ ↦
      ⟨hushed_afterRaise _ _ late s, trivial⟩)
    have hheld : AnswerHeld answer
        (chatEffect (.assign (completedUpdate answer modelName generation route)) s.1, s.2) := by
      refine ⟨hs.1.symm ▸ hanswer, ?_⟩
      obtain ⟨message, hmessage⟩ := Option.isSome_iff_exists.1 hs.2
      show (s.1.assistant.map _).map ChatMessage.content = some answer
      rw [hmessage]
      rfl
    have hsources : Keeps toldWorld telling (AnswerHeld answer) (fun _ ↦ True) (callChat (.createSources sources)) := by
      refine .await (fun s hs ↦ ⟨hushed_effect _ s, hs⟩) fun s x late hs _ _ ↦
        ⟨hushed_afterRaise _ _ late s, ?_, trivial⟩
      cases late with
      | false => exact hs
      | true => exact hs
    refine telling_bind (hsources.when _) hheld (fun _ _ ↦ trivial) fun _ u hu ↦ ?_
    exact Safe.await (hushed_effect _ u) (fun _ ↦ hu) fun x late _ _ ↦ ⟨hushed_afterRaise _ _ late u, trivial⟩
  refine Safe.bind (Safe.mono ?_ hcomplete)
  rintro (x | _) u hu
  · exact herror x u
  · exact hf u hu

theorem AddsUp.utter {answer : String} {s : Told} (hs : AddsUp answer s) {y : ChatStreamEvent}
    (hy : y.tokenText = "") : AddsUp answer (utter y s) := by
  refine ⟨?_, hs.2⟩
  have htext : tokenText (GenericApp.utter y s).2 = tokenText s.2 := by
    rw [GenericApp.utter, tokenText_concat, hy, String.append_empty]
  rw [htext, hs.1]

/-- The last two events of an answer. -/
theorem safe_finalAnswer {messageId answer : String} {sources : List ChatSource} {s : Told} (hs : AddsUp answer s) :
    Safe toldWorld telling (fun _ _ ↦ True)
      ((Coroutine.yieldOne (.status .completed) : ChatRun Unit) >>= fun _ ↦
        Coroutine.yieldOne (.final messageId answer sources)) s := by
  have hcompleted : Keeps toldWorld telling (AddsUp answer) (fun _ ↦ True)
      (Coroutine.yieldOne (.status .completed) : ChatRun Unit) :=
    keeps_tell rfl fun s hs ↦ hs.utter rfl
  refine telling_bind (Q := fun _ _ ↦ True) hcompleted hs (fun _ _ ↦ trivial) fun _ s hs ↦ ?_
  refine Safe.yieldOne (fun _ _ _ hfinal _ ↦ ?_) fun _ _ ↦ ⟨trivial, fun _ _ ↦ trivial⟩
  obtain ⟨-, rfl, -⟩ := ChatStreamEvent.final.inj hfinal
  exact hs

/-! ### The two generators -/

section Answers

variable (P : ChatPorts) (conversation : ChatConversation) (payload : ChatMessageRequest) {s : Told}

theorem preparingRules : AskRules toldWorld telling Preparing fun _ ↦ True :=
  tellingRules fun _ _ h ↦ Preparing.hushed h

/-- The generation starts when it is said that it does. -/
theorem safe_generating {α : Type} {Q : Except ChatException α → Told → Prop} {f : Unit → ChatRun α}
    (hs : Preparing s) (herror : ∀ x u, Q (.error x) u)
    (hf : ∀ u, Adding "" u → Safe toldWorld telling Q (f ()) u) :
    Safe toldWorld telling Q ((Coroutine.yieldOne (.status .generating) : ChatRun Unit) >>= fun _ ↦
      cancelIfDisconnected P >>= f) s := by
  have hcancel := (tellingRules fun s t (h : Hushed s t) (hs : Adding "" s) ↦ hs.hushed h).cancelIfDisconnected P
  refine Safe.bind (Safe.yieldOne (fun _ _ _ hfinal ↦ nomatch hfinal) fun u hu ↦ ⟨?_, fun x _ ↦ herror x u⟩)
  have hsaid : Adding "" u := hu ▸ Adding.utter ⟨hs.1.1, hs.2⟩ (.status .generating)
  exact telling_bind hcancel hsaid herror fun _ u hu ↦ hf u hu

theorem tells_documentAnswer (hs : Preparing s) (fuel : ℕ) (messageId : String) (selectedDocumentIds : List String)
    (route : ChatRouteDecision) :
    Safe toldWorld telling (fun _ _ ↦ True)
      (documentAnswer P payload fuel messageId selectedDocumentIds route) s := by
  rw [documentAnswer]
  refine telling_bind (keeps_prepare rfl rfl nofun) hs (fun _ _ ↦ trivial) fun _ s hs ↦ ?_
  refine telling_bind (preparingRules.cancelIfDisconnected P) hs (fun _ _ ↦ trivial) fun _ s hs ↦ ?_
  refine telling_bind (keeps_prepare rfl rfl nofun) hs (fun _ _ ↦ trivial) fun _ s hs ↦ ?_
  refine telling_bind (preparingRules.retrieveChunks payload selectedDocumentIds) hs (fun _ _ ↦ trivial)
    fun retrieved s hs ↦ ?_
  dsimp only
  split
  · refine telling_bind (keeps_completeUnsaid _ _ _ _ _) hs (fun _ _ ↦ trivial) fun _ s hs ↦ ?_
    exact safe_finalUnsaid hs.1 fun _ _ ↦ trivial
  · refine telling_bind (keeps_prepareSources _) hs (fun _ _ ↦ trivial) fun _ s hs ↦ ?_
    refine safe_generating P hs (fun _ _ ↦ trivial) fun s hs ↦ ?_
    refine Safe.bind (Safe.mono ?_ (safe_generateAnswer P payload fuel _ ?_ hs))
    · rintro (x | ⟨answer, generation⟩) u hu
      · trivial
      · obtain ⟨said, hsaid, hanswer⟩ := hu
        exact tells_completeMessage _ _ _ _ hsaid hanswer (fun _ _ ↦ trivial) fun _ hu ↦ safe_finalAnswer hu
    · intro answer I hI
      split
      · exact .pure ()
      · exact (tellingRules hI).apiError _ _ _

/-- If there is something to go on with, nothing has been said of an answer. -/
def StillPreparing {α : Type} : Except ChatException (Option α) → Told → Prop
  | .ok (some _), s => Preparing s
  | _, _ => True

theorem tells_contextSearch (hs : Preparing s) (messageId : String) (route : ChatRouteDecision) :
    Safe toldWorld telling StillPreparing (contextSearch P conversation payload messageId route) s := by
  rw [contextSearch]
  refine telling_bind (keeps_prepare rfl rfl nofun) hs (fun _ _ ↦ trivial) fun _ s hs ↦ ?_
  refine telling_bind (preparingRules.cancelIfDisconnected P) hs (fun _ _ ↦ trivial) fun _ s hs ↦ ?_
  refine telling_bind (keeps_prepare rfl rfl nofun) hs (fun _ _ ↦ trivial) fun _ s hs ↦ ?_
  split
  · refine telling_bind (preparingRules.searchWeb conversation payload route) hs (fun _ _ ↦ trivial)
      fun found s hs ↦ ?_
    dsimp only
    split
    · split
      · exact hs
      · refine telling_bind (keeps_completeUnsaid _ _ _ _ _) hs (fun _ _ ↦ trivial) fun _ s hs ↦ ?_
        refine Safe.bind (safe_finalUnsaid hs.1 ?_)
        rintro (x | _) u
        · trivial
        · trivial
    · exact hs
  · exact hs

theorem tells_contextAnswer (hs : Preparing s) (fuel : ℕ) (messageId historyContext : String)
    (route : ChatRouteDecision) (results : List SearchResult) :
    Safe toldWorld telling (fun _ _ ↦ True)
      (contextAnswer P conversation payload fuel messageId historyContext route results) s := by
  rw [contextAnswer]
  refine telling_bind (keeps_prepareSources _) hs (fun _ _ ↦ trivial) fun _ s hs ↦ ?_
  refine telling_bind (preparingRules.recallMemory payload route) hs (fun _ _ ↦ trivial) fun recalled s hs ↦ ?_
  refine telling_bind (keeps_prepareSources _) hs (fun _ _ ↦ trivial) fun _ s hs ↦ ?_
  refine safe_generating P hs (fun _ _ ↦ trivial) fun s hs ↦ ?_
  refine Safe.bind (Safe.mono ?_ (safe_generateAnswer P payload fuel _ (fun _ _ _ ↦ .pure ()) hs))
  rintro (x | ⟨answer, generation⟩) u hu
  · trivial
  · obtain ⟨said, hsaid, hanswer⟩ := hu
    refine tells_completeMessage _ _ _ _ hsaid hanswer (fun _ _ ↦ trivial) fun u hu ↦ ?_
    have hqueue : Keeps toldWorld telling (AddsUp answer) (fun _ ↦ True) (queueExtraction payload answer) := by
      refine .tryCatch (keeps_addsUp fun _ ↦ rfl) fun x _ ↦ ?_
      split
      · exact .pure ()
      · exact .raise trivial
    exact telling_bind (hqueue.when _) hu (fun _ _ ↦ trivial) fun _ u hu ↦ safe_finalAnswer hu

theorem tells_streamDocumentAnswer (hs : Unsaid s) (fuel : ℕ) (messageId : String) (route : ChatRouteDecision) :
    Safe toldWorld telling (fun _ _ ↦ True)
      (streamDocumentAnswer P conversation payload fuel messageId route) s := by
  have hrules : AskRules toldWorld telling Unsaid fun _ ↦ True := tellingRules fun _ _ h ↦ Unsaid.hushed h
  have hauthorize : Keeps toldWorld telling Unsaid (fun _ ↦ True) (authorizeDocuments payload) :=
    .bind ((hrules.apiError _ _ _).when _) fun _ ↦ .bind (hrules.call _ rfl) fun _ ↦
      .bind ((hrules.apiError _ _ _).when _) fun _ ↦ .pure _
  rw [streamDocumentAnswer]
  split
  · trivial
  refine telling_bind hauthorize hs (fun _ _ ↦ trivial) fun selected s hs ↦ ?_
  refine tells_createPendingMessages payload .documents hs (fun _ _ ↦ trivial) fun s hs ↦ ?_
  refine Safe.tryCatch (Safe.mono ?_ (tells_documentAnswer P payload hs fuel messageId selected route))
  rintro (x | _) u -
  · exact keeps_anything (tells_documentHandlers x)
  · trivial

theorem tells_streamContextAnswer (hs : Unsaid s) (fuel : ℕ) (messageId : String) (route : ChatRouteDecision) :
    Safe toldWorld telling (fun _ _ ↦ True)
      (streamContextAnswer P conversation payload fuel messageId route) s := by
  rw [streamContextAnswer]
  split
  · trivial
  refine telling_bind (keeps_call rfl (fun _ _ h ↦ Unsaid.hushed h) _) hs (fun _ _ ↦ trivial) fun history s hs ↦ ?_
  refine tells_createPendingMessages payload route.mode hs (fun _ _ ↦ trivial) fun s hs ↦ ?_
  have hfound : Safe toldWorld telling StillPreparing
      ((contextSearch P conversation payload messageId route).tryCatch fun x ↦ do
        contextHandlers route x
        pure none) s := by
    refine Safe.tryCatch (Safe.mono ?_ (tells_contextSearch P conversation payload hs messageId route))
    rintro (x | found) u hu
    · refine Safe.bind (Safe.mono ?_ (keeps_anything (tells_contextHandlers route x)))
      rintro (y | _) v -
      · trivial
      · trivial
    · exact hu
  refine Safe.bind (Safe.mono ?_ hfound)
  rintro (x | _ | found) u hu
  · trivial
  · trivial
  · refine Safe.tryCatch (Safe.mono ?_
      (tells_contextAnswer P conversation payload hu fuel messageId _ found.1 found.2))
    rintro (x | _) v -
    · exact keeps_anything (tells_contextHandlers found.1 x)
    · trivial

theorem tells_streamChatAnswer (hs : Unsaid s) (fuel : ℕ) (messageId : String) :
    Safe toldWorld telling (fun _ _ ↦ True) (streamChatAnswer P conversation payload fuel messageId) s := by
  have hdelegate {t : ChatRun Unit} (ht : Safe toldWorld telling (fun _ _ ↦ True) t s) :
      Safe toldWorld telling (fun _ _ ↦ True) t.delegate s :=
    Safe.delegate (K := telling) (L := telling) ⟨rfl, rfl, rfl, rfl⟩ (fun _ _ hy ↦ hy)
      (fun _ _ _ _ hu ↦ ⟨hu, fun _ _ ↦ trivial⟩) ht
  rw [streamChatAnswer]
  split
  · exact hdelegate (tells_streamDocumentAnswer P conversation payload hs fuel messageId _)
  · exact hdelegate (tells_streamContextAnswer P conversation payload hs fuel messageId _)

/-- The generator that is read, before its first event. -/
abbrev tellingMachine (fuel : ℕ) (messageId : String) :
    Machine (ChatRun Unit × Told) (Input ChatOp ChatAns ChatException) :=
  toldWorld.machine (streamChatAnswer P conversation payload fuel messageId) (ChatDb.empty, [])

end Answers

/-- **Streamed tokens add up to the answer.** The batches of a text are the text, none is longer than the bound, none
is empty unless the text is, and the loop that makes them ends. Whatever the provider streams and whatever is raised
or thrown in: where a final event is yielded after a generation, the tokens that have been yielded, stripped, are its
answer, and so is the content that is committed. -/
theorem streamed_tokens_add_up :
    (∀ maxChars text, 1 ≤ maxChars →
      String.join (boundedTokenBatches maxChars text) = text ∧
        (∀ batch ∈ boundedTokenBatches maxChars text,
          batch.length ≤ maxChars ∧ (text ≠ "" → batch ≠ "")) ∧
        ∀ more, tokenBatchesFrom maxChars (text.toList.length + more) text.toList =
          tokenBatchesFrom maxChars text.toList.length text.toList) ∧
      ∀ P conversation payload fuel messageId finalId answer sources k db events,
        (tellingMachine P conversation payload fuel messageId).Reachable Machine.anyStep
          (.emit (.final finalId answer sources) k, (db, events)) →
        Generated events →
          strip (tokenText events) = answer ∧ db.committed.map ChatMessage.content = some answer := by
  refine ⟨fun maxChars text hmax ↦ ⟨join_boundedTokenBatches hmax text,
    fun _ h ↦ mem_boundedTokenBatches hmax h, fun more ↦ tokenBatchesFrom_fuel hmax _ _ more le_rfl⟩, ?_⟩
  rintro P conversation payload fuel messageId finalId answer sources k db events ⟨c, rfl, hlater⟩ hgenerated
  have hstart : Safe toldWorld { telling with guarantee := fun _ _ ↦ True } (fun _ _ ↦ True)
      (streamChatAnswer P conversation payload fuel messageId) (ChatDb.empty, []) :=
    Safe.weaken_guarantee (fun _ _ _ ↦ trivial)
      (tells_streamChatAnswer P conversation payload ⟨rfl, List.not_mem_nil⟩ fuel messageId)
  have hsafe := (Safe.later (fun _ _ ↦ rfl) (fun _ _ ↦ trivial) (fun _ ↦ trivial) (fun _ _ _ _ _ ↦ trivial)
    hstart (hlater.mono fun c input _ ↦ ?_)).1
  · exact hsafe.1 finalId answer sources rfl hgenerated
  · obtain ⟨t, s⟩ := c
    cases t with
    | call op k =>
      cases input with
      | _ => trivial
    | emit y k =>
      cases input with
      | _ => trivial
    | _ => trivial

section OneToken

/-- A service that polls nobody, and a provider that does not stream. -/
def quietPorts : ChatPorts where
  maxHistoryMessages := 20
  maxMessageBytes := 32768
  streams := false
  polled := false
  decide payload _ := { mode := payload.mode, reason := "explicit_mode" }
  trimChunks := id
  documentContext _ _ := ""
  validCitations _ _ := true

/-- The provider's answer has a space in front. -/
def spacedAnswers : (op : ChatOp) → ChatAns op
  | .listRecentMessages _ => []
  | .listIndexedDocuments _ => []
  | .disconnected => false
  | .search _ => []
  | .recallForPrompt _ => ⟨"", [], false⟩
  | .retrieve _ _ => { chunks := [] }
  | .nextChunk _ _ => .stop
  | .runRagAnswer _ _ => ⟨"r", "m", " yes", none, none⟩
  | .createUserMessage .. | .createAssistantMessage _ | .createSources _ | .commit
  | .enforceWebSearchLimits | .enterWebSearchSlot | .enterProviderSlot | .closeStream | .assign _
  | .queueMemoryExtraction _ _ => ()

abbrev spacedAnswer : ChatRun Unit × Told :=
  (streamChatAnswer quietPorts ⟨"c", none, .auto, false, false⟩ { content := "hi", mode := .general } 1 "m",
    ChatDb.empty, [])

abbrev spacedRuns := toldWorld.machine spacedAnswer.1 spacedAnswer.2

/-- What happens up to the final event. -/
def spacedInputs : List (Input ChatOp ChatAns ChatException) :=
  List.replicate 4 (.returns spacedAnswers) ++ List.replicate 3 .resume ++
    List.replicate 2 (.returns spacedAnswers) ++ [.resume] ++ List.replicate 2 (.returns spacedAnswers) ++ [.resume]

/-- The answer of the final event that a generator yields, and whether it comes after a generation. -/
def finalAnswer (c : ChatRun Unit × Told) : Option String × Bool :=
  (match c.1 with
    | .emit (.final _ answer _) _ => some answer
    | _ => none,
    decide (Generated c.2.2))

theorem of_finalAnswer {c : ChatRun Unit × Told} {answer : String} (h : finalAnswer c = (some answer, true)) :
    (∃ finalId sources k, c.1 = .emit (.final finalId answer sources) k) ∧ Generated c.2.2 := by
  obtain ⟨t, s⟩ := c
  obtain ⟨hfinal, hgenerated⟩ := Prod.mk.inj h
  refine ⟨?_, of_decide_eq_true hgenerated⟩
  dsimp only at hfinal
  split at hfinal
  · next _ finalId _ sources k =>
    obtain rfl := Option.some.inj hfinal
    exact ⟨finalId, sources, k, rfl⟩
  · exact nomatch hfinal

/-- One token, and the final event after it. -/
theorem streamed_tokens_add_up_one : String.join (boundedTokenBatches 3 "a bcde") = "a bcde" ∧
    ∃ c, spacedRuns.Reachable Machine.anyStep c ∧ (finalAnswer c).1 = some "yes" ∧
      strip (tokenText c.2.2) = "yes" ∧ c.2.1.committed.map ChatMessage.content = some "yes" := by
  refine ⟨(streamed_tokens_add_up.1 3 "a bcde" (by decide)).1, ?_⟩
  have hrun : (spacedRuns.run Machine.anyStep spacedAnswer spacedInputs).map finalAnswer = some (some "yes", true) := by
    decide +kernel
  obtain ⟨c, hc, hshown⟩ := Option.map_eq_some_iff.1 hrun
  obtain ⟨⟨finalId, sources, k, hfinal⟩, hgenerated⟩ := of_finalAnswer hshown
  have hreachable : spacedRuns.Reachable Machine.anyStep c := ⟨spacedAnswer, rfl, Machine.later_of_run hc⟩
  obtain ⟨t, db, events⟩ := c
  obtain rfl : t = _ := hfinal
  exact ⟨_, hreachable, rfl, streamed_tokens_add_up.2 quietPorts ⟨"c", none, .auto, false, false⟩
    { content := "hi", mode := .general } 1 "m" finalId "yes" sources k db events hreachable hgenerated⟩

end OneToken

end GenericApp
