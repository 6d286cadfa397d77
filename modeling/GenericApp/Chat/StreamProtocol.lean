import GenericApp.Chat.EventStream
import GenericApp.Chat.Settlement

/-!
# The protocol of the event stream

What the reader is sent is numbered from one on, and ends with exactly one last word, as long as the steps are taken
in time. The argument goes over the steps of the loop: `Listening` says how what has been sent relates to what the
generator has produced while the loop listens, and the generator's own contract (`LastWord`) says what its end means.
-/

namespace GenericApp

open Py

namespace EventStream

variable {s t : EventStream}

/-! ### Closed lists of events -/

theorem isFinal_of_open {y : ChatStreamEvent} (h : y.isTerminal = false) : y.isFinal = false := by
  cases y with
  | final messageId answer sources => exact nomatch h
  | _ => rfl

/-- Of two last words there is only one. -/
theorem Closed.isFinal_eq_false {ys : List ChatStreamEvent} (h : Closed ys) {y z : ChatStreamEvent} (hy : y ∈ ys)
    (hterminal : y.isTerminal = true) (hfinal : y.isFinal = false) (hz : z ∈ ys) : z.isFinal = false := by
  obtain ⟨front, last, rfl, hopen, -⟩ := h
  rcases List.mem_append.1 hz with hz | hz
  · exact isFinal_of_open (hopen z hz)
  obtain rfl := List.mem_singleton.1 hz
  rcases List.mem_append.1 hy with hy | hy
  · exact nomatch (hopen y hy).symm.trans hterminal
  · exact List.mem_singleton.1 hy ▸ hfinal

theorem Open.concat {ys : List ChatStreamEvent} (h : Open ys) {y : ChatStreamEvent} (hy : y.isTerminal = false) :
    Open (ys ++ [y]) := by
  intro z hz
  rcases List.mem_append.1 hz with hz | hz
  · exact h z hz
  · exact List.mem_singleton.1 hz ▸ hy

/-! ### The task -/

/-- A call does not say the last word. -/
theorem ended_of_call {op : ChatOp} {k : Except ChatException (ChatAns op) → ChatRun Unit} {u : ChatRun Unit}
    {db db' : ChatDb} {input : Input ChatOp ChatAns ChatException}
    (h : chatWorld.step (.call op k, db) input = some (u, db')) : db'.ended = db.ended := by
  cases input with
  | returns answer =>
    obtain ⟨-, rfl⟩ := Prod.mk.inj (Option.some.inj h)
    exact ended_chatEffect op db
  | raises x late =>
    rw [World.step] at h
    split at h
    · obtain ⟨-, rfl⟩ := Prod.mk.inj (Option.some.inj h)
      cases late with
      | false => exact rfl
      | true => exact ended_chatEffect op db
    · cases h
  | resume => cases h
  | throws x => cases h

/-- A step of the generator at which nothing is left to be sent. -/
theorem listening_advance {service : ChatRun Unit × ChatDb} (hat : s.at_ ≠ .paused .nextEvent)
    (hsafe : Safe chatWorld speaking (LastWord fun _ ↦ true) service.1 service.2) (hproduced : s.produced = s.heard)
    (hopen : service.2.ended = false → Open s.heard) (hclosed : service.2.ended = true → Closed s.heard) :
    Listening (s.advance service) := by
  obtain ⟨t, db⟩ := service
  have hnothing (ht : producedBy t = []) : Listening (s.advance (t, db)) := by
    refine .between (.inr ⟨rfl, ht⟩) hat ?_ hopen hclosed
    change s.produced ++ producedBy t = s.heard
    rw [ht, List.append_nil, hproduced]
  cases t with
  | done a => exact hnothing rfl
  | raised x => exact hnothing rfl
  | call op k => exact hnothing rfl
  | emit y k =>
    -- it yields, so that its last word has not been said
    have hended : db.ended = false := hsafe.1
    refine .ready (y := y) (k := k) rfl rfl hat ?_ (hopen hended)
    change s.produced ++ [y] = s.heard ++ [y]
    rw [hproduced]

/-- How the loop stands does not matter, except where it has sent an event and not come back. -/
theorem Listening.of_eq (h : Listening s) (hservice : t.service = s.service) (hpending : t.pending = s.pending)
    (hheard : t.heard = s.heard) (hproduced : t.produced = s.produced)
    (hat : t.at_ = .paused .nextEvent ↔ s.at_ = .paused .nextEvent) : Listening t := by
  cases h with
  | sent hs hp hh hpr ho =>
    refine .sent (hservice ▸ hs) ?_ (hheard.trans hh) (hproduced.trans (hpr.trans hheard.symm)) ho
    rw [hpending, ne_eq, hat]
    exact hp
  | ready hs hp ha hpr ho =>
    exact .ready (hservice ▸ hs) (hpending.trans hp) (mt hat.1 ha) (by rw [hproduced, hpr, hheard]) (hheard ▸ ho)
  | between hp ha hpr ho hc =>
    exact .between (by rwa [hpending, hservice]) (mt hat.1 ha) (hproduced.trans (hpr.trans hheard.symm))
      (by rwa [hservice, hheard]) (by rwa [hservice, hheard])

/-! ### The end of a wait -/

/-- Nothing has been concluded where the last word has neither been sent nor been produced. -/
theorem TimedOut.of_not_concluded (h : ¬s.Concluded) (after : AfterYield) :
    TimedOut (s.send requestTimeout after) where
  closed := by
    refine ⟨s.heard, requestTimeout, heard_send _ _, fun y hy ↦ ?_, rfl⟩
    exact Bool.eq_false_of_not_eq_true fun hterminal ↦ h (.inr ⟨y, hy, hterminal⟩)
  notFinal y hy := Bool.eq_false_of_not_eq_true fun hfinal ↦ h (.inl ⟨y, hy, hfinal⟩)

/-- Without the last word nothing is concluded. -/
theorem not_concluded_of_open (hproduced : s.produced = s.heard) (hopen : Open s.heard) : ¬s.Concluded := by
  rintro (⟨y, hy, hfinal⟩ | ⟨y, hy, hterminal⟩)
  · exact nomatch (isFinal_of_open (hopen y (hproduced ▸ hy))).symm.trans hfinal
  · exact nomatch (hopen y hy).symm.trans hterminal

theorem standing_timedOut (h : Listening s) (hat : s.at_ = .waiting) (hin : s.deadline ≤ s.now → ¬s.Concluded) :
    Standing s.timedOut := by
  rw [timedOut]
  split
  · have hheard : heard { s with out := s.out ++ [.keepAlive], at_ := .paused .goOn } = s.heard := by
      rw [heard, heard, events, events, List.filterMap_append]
      exact congrArg _ (List.append_nil _)
    refine h.of_eq (t := { s with out := s.out ++ [.keepAlive], at_ := .paused .goOn }) rfl rfl hheard rfl ?_
    rw [hat]
    constructor <;> rintro ⟨⟩
  · next hlt => exact TimedOut.of_not_concluded (hin (Int.not_lt.1 hlt)) _

/-! ### The steps -/

theorem standing_iff_listening (h : s.listens = true) : Standing s ↔ Listening s := by
  obtain ⟨service, pending, now, deadline, sequence, out, at_, produced⟩ := s
  cases at_ with
  | looping | waiting => exact Iff.rfl
  | paused after =>
    cases after with
    | nextEvent | goOn => exact Iff.rfl
    | stop => exact nomatch h
  | ended failed => exact nomatch h

/-- The generator gets as far as `service`, and nothing of it is left to be sent. -/
theorem Invariant.advance {service : ChatRun Unit × ChatDb} (h : Invariant s) (hlistens : s.listens = true)
    (hat : s.at_ ≠ .paused .nextEvent)
    (hsafe : Safe chatWorld speaking (LastWord fun _ ↦ true) service.1 service.2) (hproduced : s.produced = s.heard)
    (hopen : service.2.ended = false → Open s.heard) (hclosed : service.2.ended = true → Closed s.heard) :
    Invariant (s.advance service) where
  safe := hsafe
  numbered := h.numbered
  standing := (standing_iff_listening (s := s.advance service) hlistens).2
    (listening_advance hat hsafe hproduced hopen hclosed)

theorem Invariant.start (h : Invariant s) (hstep : s.step .start = some t) : Invariant t := by
  rw [step] at hstep
  split at hstep
  · next hlistens =>
    cases (standing_iff_listening hlistens).1 h.standing with
    | ready hs hp ha hpr ho =>
      rw [hp] at hstep
      exact nomatch hstep
    | sent hs hp hh hpr ho =>
      rename_i y k front
      obtain ⟨⟨service, db⟩, pending, now, deadline, sequence, out, at_, produced⟩ := s
      obtain rfl : service = .emit y k := hs
      rcases hp with ⟨-, hp⟩ | ⟨hat, hp⟩
      · obtain rfl : pending = _ := hp
        exact nomatch hstep
      · obtain rfl : pending = _ := hp
        obtain rfl := Option.some.inj hstep
        -- the event that has been sent was the last word if the generator goes on behind one
        obtain ⟨hended, hrest⟩ := h.safe
        have hhear : (hear y db).ended = y.isTerminal := by
          change (db.ended || y.isTerminal) = y.isTerminal
          rw [hended, Bool.false_or]
        refine h.advance hlistens hat (hrest _ rfl).1 hpr (fun hend ↦ ?_) fun hend ↦ ?_
        · exact hh ▸ ho.concat (hhear ▸ hend)
        · exact ⟨front, y, hh, ho, hhear ▸ hend⟩
    | between hp ha hpr ho hc =>
      rcases hp with hp | ⟨hp, hs⟩
      · rw [hp] at hstep
        obtain rfl := Option.some.inj hstep
        exact h.advance hlistens ha h.safe hpr ho hc
      · obtain ⟨⟨service, db⟩, pending, now, deadline, sequence, out, at_, produced⟩ := s
        obtain rfl : pending = taskOf service := hp
        cases service with
        | done a => exact nomatch hstep
        | raised x => exact nomatch hstep
        | call op k => exact nomatch hstep
        | emit y k => exact nomatch hs
  · exact nomatch hstep

theorem Invariant.serve {input : Input ChatOp ChatAns ChatException} (h : Invariant s)
    (hstep : s.step (.serve input) = some t) : Invariant t := by
  rw [step] at hstep
  split at hstep
  · next hlistens =>
    obtain ⟨hrunning, hlistens⟩ := hlistens
    obtain ⟨⟨u, db'⟩, hserve, rfl⟩ := Option.map_eq_some_iff.1 hstep
    cases (standing_iff_listening hlistens).1 h.standing with
    | ready hs hp ha hpr ho => cases hrunning.symm.trans hp
    | sent hs hp hh hpr ho =>
      rcases hp with ⟨-, hp⟩ | ⟨-, hp⟩
      · cases hrunning.symm.trans hp
      · cases hrunning.symm.trans hp
    | between hp ha hpr ho hc =>
      obtain ⟨⟨service, db⟩, pending, now, deadline, sequence, out, at_, produced⟩ := s
      obtain rfl : pending = .running := hrunning
      rcases hp with hp | ⟨hp, hs⟩
      · cases hp
      cases service with
      | done a => cases hp
      | raised x => cases hp
      | emit y k => cases hs
      | call op k =>
        have hmeets : speaking.Meets ((.call op k : ChatRun Unit), db) input := by
          cases input with
          | _ => trivial
        obtain ⟨hsafe, -⟩ := Safe.step (fun _ _ ↦ rfl) (fun _ _ _ ↦ trivial) h.safe hmeets hserve
        have hended : db'.ended = db.ended := ended_of_call hserve
        exact h.advance hlistens ha hsafe hpr (fun hend ↦ ho (hended ▸ hend)) fun hend ↦ hc (hended ▸ hend)
  · cases hstep

/-- Sending an event that is not sent by the generator, or nothing, leaves the generator as it is. -/
theorem Invariant.send (h : Invariant s) {y : ChatStreamEvent} {after : AfterYield}
    (hstanding : Standing (s.send y after)) : Invariant (s.send y after) :=
  ⟨h.safe, numbered_send h.numbered y after, hstanding⟩

theorem Invariant.timedOut (h : Invariant s) (hat : s.at_ = .waiting) (hin : s.deadline ≤ s.now → ¬s.Concluded) :
    Invariant s.timedOut := by
  have hlistening : Listening s := (standing_iff_listening (by rw [listens, hat])).1 h.standing
  have hstanding : Standing s.timedOut := standing_timedOut hlistening hat hin
  rw [EventStream.timedOut] at hstanding ⊢
  split
  · next hlt =>
    rw [if_pos hlt] at hstanding
    refine ⟨h.safe, ?_, hstanding⟩
    rw [events, List.filterMap_append]
    exact (congrArg _ (List.append_nil _)).trans h.numbered
  · next hlt =>
    rw [if_neg hlt] at hstanding
    exact h.send hstanding

theorem Invariant.check (h : Invariant s) (hin : s.InTime .check) (hstep : s.step .check = some t) :
    Invariant t := by
  rw [step] at hstep
  split at hstep
  · next hat =>
    split at hstep
    · next hle =>
      obtain rfl := Option.some.inj hstep
      exact h.send (TimedOut.of_not_concluded (hin hle) .stop)
    · obtain rfl := Option.some.inj hstep
      have hlistening : Listening s := (standing_iff_listening (by rw [listens, hat])).1 h.standing
      refine ⟨h.safe, h.numbered, hlistening.of_eq (t := { s with at_ := .waiting }) rfl rfl rfl rfl ?_⟩
      rw [hat]
      exact ⟨(nomatch ·), (nomatch ·)⟩
  · exact nomatch hstep

theorem Invariant.deliver (h : Invariant s) (hin : s.InTime .deliver) (hstep : s.step .deliver = some t) :
    Invariant t := by
  rw [step] at hstep
  split at hstep
  · next hat =>
    have hlistening : Listening s := (standing_iff_listening (by rw [listens, hat])).1 h.standing
    cases hlistening with
    | sent hs hp hh hpr ho =>
      rcases hp with ⟨hp, -⟩ | ⟨-, hp⟩
      · exact nomatch hat.symm.trans hp
      · rw [hp] at hstep
        exact nomatch hstep
    | ready hs hp ha hpr ho =>
      rename_i y k
      rw [hp] at hstep
      obtain rfl := Option.some.inj hstep
      have hheard : (s.send y .nextEvent).heard = s.heard ++ [y] := heard_send y _
      exact h.send (.sent hs (.inl ⟨rfl, hp⟩) hheard (hpr.trans hheard.symm) ho)
    | between hp ha hpr ho hc =>
      obtain ⟨⟨service, db⟩, pending, now, deadline, sequence, out, at_, produced⟩ := s
      obtain rfl : at_ = .waiting := hat
      rcases hp with hp | ⟨hp, hs⟩
      · obtain rfl : pending = _ := hp
        exact nomatch hstep
      obtain rfl : pending = taskOf service := hp
      cases service with
      | done a =>
        obtain rfl := Option.some.inj hstep
        have hended : db.ended = true := h.safe
        exact ⟨h.safe, h.numbered, .inr ⟨hc hended, hpr⟩⟩
      | raised x =>
        obtain rfl : x = .timeout := of_decide_eq_true hin
        obtain rfl := Option.some.inj hstep
        have hended : db.ended = false := h.safe
        exact h.timedOut rfl fun _ ↦ not_concluded_of_open hpr (ho hended)
      | call op k => exact nomatch hstep
      | emit y k => exact nomatch hs
  · exact nomatch hstep

theorem Invariant.read (h : Invariant s) (hstep : s.step .read = some t) : Invariant t := by
  obtain ⟨service, pending, now, deadline, sequence, out, at_, produced⟩ := s
  cases at_ with
  | looping | waiting | ended failed => exact nomatch hstep
  | paused after =>
    cases after with
    | nextEvent =>
      obtain rfl := Option.some.inj hstep
      refine ⟨h.safe, h.numbered, ?_⟩
      cases (standing_iff_listening rfl).1 h.standing with
      | sent hs hp hh hpr ho => exact .sent hs (.inr ⟨nofun, rfl⟩) hh hpr ho
      | ready hs hp ha hpr ho => exact absurd rfl ha
      | between hp ha hpr ho hc => exact absurd rfl ha
    | goOn =>
      obtain rfl := Option.some.inj hstep
      have hlistening := (standing_iff_listening rfl).1 h.standing
      exact ⟨h.safe, h.numbered, hlistening.of_eq rfl rfl rfl rfl ⟨(nomatch ·), (nomatch ·)⟩⟩
    | stop =>
      obtain rfl := Option.some.inj hstep
      have htimedOut : TimedOut _ := h.standing
      exact ⟨h.safe, h.numbered, .inl ⟨htimedOut.closed, htimedOut.notFinal⟩⟩

theorem Invariant.tick {now : ℤ} (h : Invariant s) : Invariant { s with now := now } := by
  refine ⟨h.safe, h.numbered, ?_⟩
  obtain ⟨service, pending, now, deadline, sequence, out, at_, produced⟩ := s
  cases at_ with
  | looping | waiting => exact ((standing_iff_listening rfl).1 h.standing).of_eq rfl rfl rfl rfl Iff.rfl
  | paused after =>
    cases after with
    | nextEvent | goOn => exact ((standing_iff_listening rfl).1 h.standing).of_eq rfl rfl rfl rfl Iff.rfl
    | stop =>
      have htimedOut : TimedOut _ := h.standing
      exact TimedOut.mk htimedOut.closed htimedOut.notFinal
  | ended failed =>
    cases failed with
    | none => exact (h.standing : _ ∨ _).imp (fun h ↦ ⟨h.closed, h.notFinal⟩) fun h ↦ ⟨h.closed, h.produced⟩
    | some x => exact h.standing.elim

theorem Invariant.step {a : StreamAction} (h : Invariant s) (hin : s.InTime a) (hstep : s.step a = some t) :
    Invariant t := by
  cases a with
  | tick now =>
    rw [EventStream.step] at hstep
    split at hstep
    · obtain rfl := Option.some.inj hstep
      exact h.tick
    · exact nomatch hstep
  | start => exact h.start hstep
  | serve input => exact h.serve hstep
  | check => exact h.check hin hstep
  | deliver => exact h.deliver hin hstep
  | expire =>
    rw [EventStream.step] at hstep
    split at hstep
    · next hat =>
      obtain rfl := Option.some.inj hstep
      exact h.timedOut hat hin
    · exact nomatch hstep
  | read => exact h.read hstep

/-! ### What the reader is sent -/

theorem Invariant.closed (h : Invariant s) {failed : Option ChatException} (hat : s.at_ = .ended failed) :
    failed = none ∧ Closed s.heard := by
  have hstanding := h.standing
  rw [Standing, hat] at hstanding
  cases failed with
  | none => exact ⟨rfl, hstanding.elim TimedOut.closed Finished.closed⟩
  | some x => exact hstanding.elim

/-- Where the loop listens, a timeout that the reader has been sent is the service's own. -/
theorem Listening.notFinal (h : Listening s) (htimeout : requestTimeout ∈ s.heard) :
    ∀ y ∈ s.produced, y.isFinal = false := by
  have hclosed : s.produced = s.heard → Closed s.heard → ∀ y ∈ s.produced, y.isFinal = false :=
    fun hproduced hclosed y hy ↦ hclosed.isFinal_eq_false htimeout rfl rfl (hproduced ▸ hy)
  cases h with
  | sent hs hp hh hpr ho =>
    rename_i y k front
    refine hclosed hpr ⟨front, y, hh, ho, ?_⟩
    rcases List.mem_append.1 (hh ▸ htimeout) with hfront | hlast
    · exact nomatch ho _ hfront
    · exact List.mem_singleton.1 hlast ▸ rfl
  | ready hs hp ha hpr ho => exact nomatch ho _ htimeout
  | between hp ha hpr ho hc =>
    cases hended : s.service.2.ended with
    | false => exact nomatch ho hended _ htimeout
    | true => exact hclosed hpr (hc hended)

theorem Invariant.notFinal (h : Invariant s) (htimeout : requestTimeout ∈ s.heard) :
    ∀ y ∈ s.produced, y.isFinal = false := by
  cases hlistens : s.listens with
  | true => exact ((standing_iff_listening hlistens).1 h.standing).notFinal htimeout
  | false =>
    obtain ⟨service, pending, now, deadline, sequence, out, at_, produced⟩ := s
    cases at_ with
    | looping | waiting => exact nomatch hlistens
    | paused after =>
      cases after with
      | nextEvent | goOn => exact nomatch hlistens
      | stop => exact TimedOut.notFinal h.standing
    | ended failed =>
      cases failed with
      | none =>
        rcases (h.standing : _ ∨ _) with htimedOut | hfinished
        · exact htimedOut.notFinal
        · exact fun y hy ↦ hfinished.closed.isFinal_eq_false htimeout rfl rfl (hfinished.produced ▸ hy)
      | some x => exact h.standing.elim

theorem Invariant.of_reachable {service : ChatRun Unit}
    (hsafe : Safe chatWorld speaking (LastWord fun _ ↦ true) service ChatDb.empty)
    (h : (eventStream service).Reachable InTime s) : Invariant s := by
  refine Machine.Reachable.invariant ?_ (fun s a t hs hin hstep ↦ hs.step hin hstep) h
  rintro s ⟨hservice, hpending, hsequence, hout, hat, hproduced⟩
  have hevents : s.events = [] := by rw [events, hout, List.filterMap_nil]
  have hheard : s.heard = [] := by rw [heard, hevents, List.map_nil]
  have hlistens : s.listens = true := by rw [listens, hat]
  refine ⟨by rwa [hservice], by rw [hevents, hsequence, List.map_nil, List.range'_zero], ?_⟩
  refine (standing_iff_listening hlistens).2
    (.between (.inl hpending) (fun h ↦ by cases hat.symm.trans h) (hproduced.trans hheard.symm) ?_ ?_)
  · exact fun _ y hy ↦ absurd (hheard ▸ hy) List.not_mem_nil
  · intro hended
    rw [hservice] at hended
    cases hended

end EventStream

/-- As long as the steps are taken in time, the events are numbered from one on, a stream that is over has ended
with its one last word, and a stream that times out has no final event of the service to send. -/
theorem event_stream_protocol (P : ChatPorts) (conversation : ChatConversation) (payload : ChatMessageRequest)
    (fuel : ℕ) (messageId : String) {s : EventStream}
    (h : (eventStream (streamChatAnswer P conversation payload fuel messageId)).Reachable EventStream.InTime s) :
    s.events.map Prod.fst = List.range' 1 s.events.length ∧
      (∀ failed, s.at_ = .ended failed → failed = none ∧ EventStream.Closed s.heard) ∧
      (EventStream.requestTimeout ∈ s.heard → ∀ y ∈ s.produced, y.isFinal = false) := by
  have hinvariant : s.Invariant :=
    .of_reachable (lastWord_streamChatAnswer P conversation payload rfl fuel messageId) h
  have hlength : s.events.length = s.sequence := by
    have h := congrArg List.length hinvariant.numbered
    rwa [List.length_map, List.length_range'] at h
  exact ⟨hlength ▸ hinvariant.numbered, fun _ ↦ hinvariant.closed, hinvariant.notFinal⟩

/-! ### Two requests -/

section Requests

/-- The stream of a request, before its first step. -/
def opened (service : ChatRun Unit) : EventStream :=
  ⟨(service, ChatDb.empty), .created false, 0, 5, 0, [], .looping, []⟩

theorem init_opened (service : ChatRun Unit) : (eventStream service).init (opened service) :=
  ⟨rfl, rfl, rfl, rfl, rfl, rfl⟩

/-- The numbers of the events that have been sent, whether each is a last word, and where the loop stands. -/
def sentSoFar (s : EventStream) : List (ℕ × Bool) × StreamPoint :=
  (s.events.map fun (sequence, y) ↦ (sequence, y.isTerminal), s.at_)

/-- The first event is sent, and the deadline passes while the client is asked for. -/
def slowGreeting : List StreamAction :=
  .start :: List.replicate 4 (.serve (.returns goneAnswers)) ++ [.check, .deliver, .read, .start, .tick 10, .check, .read]

theorem event_stream_protocol_timeout :
    ∃ s, (eventStream greeting.1).Reachable EventStream.InTime s ∧
      sentSoFar s = ([(1, false), (2, true)], .ended none) ∧ EventStream.Closed s.heard := by
  have hrun : ((eventStream greeting.1).run EventStream.InTime (opened greeting.1) slowGreeting).map sentSoFar =
      some ([(1, false), (2, true)], .ended none) := by
    decide +kernel
  obtain ⟨s, hs, hsent⟩ := Option.map_eq_some_iff.1 hrun
  have hreachable : (eventStream greeting.1).Reachable EventStream.InTime s :=
    ⟨opened greeting.1, init_opened _, Machine.later_of_run hs⟩
  have hprotocol := event_stream_protocol polledPorts greetedChat greetingMessage 1 "m" hreachable
  exact ⟨s, hreachable, hsent, (hprotocol.2.1 none (congrArg Prod.snd hsent)).2⟩

/-- A request that names another conversation than its path. -/
def strayMessage : ChatMessageRequest := { greetingMessage with conversationId := some "d" }

abbrev stray : ChatRun Unit := streamChatAnswer polledPorts greetedChat strayMessage 1 "m"

/-- It is refused outside of every `try`, and the stream ends without an event. -/
theorem refused_request_has_no_last_word :
    ¬∀ s, (eventStream stray).Reachable Machine.anyStep s → ∀ failed, s.at_ = .ended failed →
      EventStream.Closed s.heard := by
  intro h
  have hrun : ((eventStream stray).run Machine.anyStep (opened stray) [.start, .check, .deliver]).map sentSoFar =
      some ([], .ended (some (structuredApiError 409 "conflict" "Conversation ID does not match request path."))) := by
    decide +kernel
  obtain ⟨s, hs, hsent⟩ := Option.map_eq_some_iff.1 hrun
  obtain ⟨front, y, hheard, -⟩ := h s ⟨opened stray, init_opened _, Machine.later_of_run hs⟩ _ (congrArg Prod.snd hsent)
  have hnone : s.events = [] := List.map_eq_nil_iff.1 (congrArg Prod.fst hsent)
  rw [EventStream.heard, hnone, List.map_nil] at hheard
  exact List.append_ne_nil_of_right_ne_nil front (List.cons_ne_nil y []) hheard.symm

end Requests

end GenericApp
