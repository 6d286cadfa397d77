import GenericApp.Chat.StreamShape

/-!
# The event stream of a chat request

`event_stream` reads the events of the chat service one at a time. For each it starts a task, and waits for the task
in slices of a heartbeat, until the deadline of the request. Between two events it is itself suspended, for as long
as the reader likes.

The machine is the two of them under a clock: the generator of the service, advanced by its task, and the loop. What
the generator does when its task is cancelled is not followed, because nobody reads it.
-/

namespace GenericApp

open Py

/-! ### The states -/

def ChatStreamEvent.isFinal : ChatStreamEvent → Bool
  | .final .. => true
  | .status _ | .source _ | .token _ | .error .. | .cancelled _ => false

/-- What the reader is sent. -/
inductive StreamOutput
  | keepAlive
  /-- `encode_sse_event(sequence, payload)` -/
  | event (sequence : ℕ) (payload : ChatStreamEvent)
deriving DecidableEq

/-- How a task of `events.__anext__()` has ended. -/
inductive TaskResult
  | event (payload : ChatStreamEvent)
  /-- `StopAsyncIteration` -/
  | stop
  | raised (x : ChatException)
deriving DecidableEq

/-- A task of `events.__anext__()`. -/
inductive PendingTask
  /-- Not begun: the generator is to be resumed, or to take its first step. -/
  | created (resumes : Bool)
  | running
  | done (result : TaskResult)
deriving DecidableEq

/-- The task has raised a `TimeoutError` if it has raised anything. -/
def PendingTask.raisesTimeoutOnly : PendingTask → Bool
  | .done (.raised x) => x = .timeout
  | .created _ | .running | .done (.event _) | .done .stop => true

/-- What the loop does when its reader comes back. -/
inductive AfterYield
  /-- It starts the task of the next event. -/
  | nextEvent
  /-- `continue` -/
  | goOn
  /-- `break` -/
  | stop
deriving DecidableEq

/-- Where the loop stands. -/
inductive StreamPoint
  | looping
  | waiting
  | paused (after : AfterYield)
  /-- The loop has been left, or an exception has gone through it. -/
  | ended (failed : Option ChatException)
deriving DecidableEq

/-- The service, its task and the loop. -/
structure EventStream where
  service : ChatRun Unit × ChatDb
  pending : PendingTask
  now : ℤ
  deadline : ℤ
  sequence : ℕ
  out : List StreamOutput
  at_ : StreamPoint
  /-- The events that the service has produced. -/
  produced : List ChatStreamEvent

namespace EventStream

/-- The events that the reader is sent, with their numbers. -/
def events (s : EventStream) : List (ℕ × ChatStreamEvent) :=
  s.out.filterMap fun
    | .keepAlive => none
    | .event sequence payload => some (sequence, payload)

def requestTimeout : ChatStreamEvent := .error "request_timeout" "The chat request timed out." true

/-- `sequence += 1; yield encode_sse_event(sequence, payload)` -/
def send (s : EventStream) (payload : ChatStreamEvent) (after : AfterYield) : EventStream :=
  { s with
    sequence := s.sequence + 1
    out := s.out ++ [.event (s.sequence + 1) payload]
    at_ := .paused after }

/-- What is done where the wait has timed out. -/
def timedOut (s : EventStream) : EventStream :=
  if s.now < s.deadline then { s with out := s.out ++ [.keepAlive], at_ := .paused .goOn }
  else s.send requestTimeout .stop

end EventStream

/-! ### The steps -/

/-- How the task stands when the generator has got as far as `t`. -/
def taskOf : ChatRun Unit → PendingTask
  | .done _ => .done .stop
  | .raised x => .done (.raised x)
  | .call _ _ => .running
  | .emit y _ => .done (.event y)

def producedBy : ChatRun Unit → List ChatStreamEvent
  | .emit y _ => [y]
  | .done _ | .raised _ | .call _ _ => []

inductive StreamAction
  /-- Time passes. -/
  | tick (now : ℤ)
  /-- The task takes its first step, and the generator its first or the one after its last event. -/
  | start
  /-- What the generator awaits comes back. -/
  | serve (input : Input ChatOp ChatAns ChatException)
  /-- The loop looks at the clock. -/
  | check
  /-- The wait ends because the task has. -/
  | deliver
  /-- The wait ends because its time is up. -/
  | expire
  /-- The reader comes back. -/
  | read

namespace EventStream

/-- The task has advanced the generator. -/
def advance (s : EventStream) (service : ChatRun Unit × ChatDb) : EventStream :=
  { s with
    service := service
    pending := taskOf service.1
    produced := s.produced ++ producedBy service.1 }

/-- The loop is interested in its task. -/
def listens (s : EventStream) : Bool :=
  match s.at_ with
  | .looping | .waiting | .paused .nextEvent | .paused .goOn => true
  | .paused .stop | .ended _ => false

def step (s : EventStream) : StreamAction → Option EventStream
  | .tick now => if s.now ≤ now then some { s with now := now } else none
  | .start =>
    if s.listens then
      match s.pending, s.service with
      | .created true, (.emit y k, db) => some (s.advance (k none, hear y db))
      | .created _, service => some (s.advance service)
      | .running, _ | .done _, _ => none
    else none
  | .serve input =>
    if s.pending = .running ∧ s.listens = true then (chatWorld.step s.service input).map s.advance else none
  | .check =>
    if s.at_ = .looping then
      if s.deadline ≤ s.now then some (s.send requestTimeout .stop) else some { s with at_ := .waiting }
    else none
  | .deliver =>
    if s.at_ = .waiting then
      match s.pending with
      | .done (.event y) => some (s.send y .nextEvent)
      | .done .stop => some { s with at_ := .ended none }
      -- a `TimeoutError` of the task is not told apart from one of the wait
      | .done (.raised .timeout) => some s.timedOut
      | .done (.raised x) => some { s with at_ := .ended (some x) }
      | .created _ | .running => none
    else none
  | .expire => if s.at_ = .waiting then some s.timedOut else none
  | .read =>
    match s.at_ with
    | .paused .nextEvent => some { s with pending := .created true, at_ := .looping }
    | .paused .goOn => some { s with at_ := .looping }
    | .paused .stop => some { s with at_ := .ended none }
    | .looping | .waiting | .ended _ => none

end EventStream

/-- `stream_message` from where it has found its conversation. -/
def eventStream (service : ChatRun Unit) : Machine EventStream StreamAction where
  init s := s.service = (service, ChatDb.empty) ∧ s.pending = .created false ∧ s.sequence = 0 ∧ s.out = [] ∧
    s.at_ = .looping ∧ s.produced = []
  step := EventStream.step

/-! ### The protocol -/

namespace EventStream

/-- The events that the reader is sent, without their numbers. -/
def heard (s : EventStream) : List ChatStreamEvent := s.events.map Prod.snd

/-- The service has produced its final event, or the reader has been sent its last word. -/
def Concluded (s : EventStream) : Prop :=
  (∃ y ∈ s.produced, y.isFinal = true) ∨ ∃ y ∈ s.heard, y.isTerminal = true

/-- The steps that the protocol survives: the service raises nothing but a `TimeoutError`, and the deadline is not
found to have passed when the stream has been concluded. -/
def InTime (s : EventStream) : StreamAction → Prop
  | .deliver => s.pending.raisesTimeoutOnly = true
  | .check => s.deadline ≤ s.now → ¬s.Concluded
  | .expire => s.deadline ≤ s.now → ¬s.Concluded
  | .tick _ | .start | .serve _ | .read => True

instance (s : EventStream) : Decidable s.Concluded :=
  inferInstanceAs (Decidable ((∃ y ∈ s.produced, y.isFinal = true) ∨ ∃ y ∈ s.heard, y.isTerminal = true))

instance (s : EventStream) : (a : StreamAction) → Decidable (s.InTime a)
  | .deliver => inferInstanceAs (Decidable (s.pending.raisesTimeoutOnly = true))
  | .check | .expire => inferInstanceAs (Decidable (s.deadline ≤ s.now → ¬s.Concluded))
  | .tick _ | .start | .serve _ | .read => inferInstanceAs (Decidable True)

/-- The last word is not among these events. -/
def Open (ys : List ChatStreamEvent) : Prop := ∀ y ∈ ys, y.isTerminal = false

/-- The last word is the last of these events. -/
def Closed (ys : List ChatStreamEvent) : Prop := ∃ front y, ys = front ++ [y] ∧ Open front ∧ y.isTerminal = true

/-- Where the loop and the task stand while the loop listens. -/
inductive Listening (s : EventStream) : Prop
  /-- The event at which the generator has yielded has been sent. -/
  | sent {y : ChatStreamEvent} {k : Option ChatException → ChatRun Unit} {front : List ChatStreamEvent}
      (hservice : s.service.1 = .emit y k)
      (hpending : s.at_ = .paused .nextEvent ∧ s.pending = .done (.event y) ∨
        s.at_ ≠ .paused .nextEvent ∧ s.pending = .created true)
      (hheard : s.heard = front ++ [y]) (hproduced : s.produced = s.heard) (hopen : Open front)
  /-- It has not. -/
  | ready {y : ChatStreamEvent} {k : Option ChatException → ChatRun Unit} (hservice : s.service.1 = .emit y k)
      (hpending : s.pending = .done (.event y)) (hat : s.at_ ≠ .paused .nextEvent)
      (hproduced : s.produced = s.heard ++ [y]) (hopen : Open s.heard)
  /-- The generator has not yielded. -/
  | between
      (hpending : s.pending = .created false ∨ s.pending = taskOf s.service.1 ∧ producedBy s.service.1 = [])
      (hat : s.at_ ≠ .paused .nextEvent) (hproduced : s.produced = s.heard)
      (hopen : s.service.2.ended = false → Open s.heard) (hclosed : s.service.2.ended = true → Closed s.heard)

/-- The stream has ended with a timeout of its own. -/
structure TimedOut (s : EventStream) : Prop where
  closed : Closed s.heard
  notFinal : ∀ y ∈ s.produced, y.isFinal = false

/-- The stream has ended with the last word of the service. -/
structure Finished (s : EventStream) : Prop where
  closed : Closed s.heard
  produced : s.produced = s.heard

def Standing (s : EventStream) : Prop :=
  match s.at_ with
  | .looping | .waiting | .paused .nextEvent | .paused .goOn => Listening s
  | .paused .stop => TimedOut s
  | .ended none => TimedOut s ∨ Finished s
  | .ended (some _) => False

structure Invariant (s : EventStream) : Prop where
  safe : Safe chatWorld speaking (LastWord fun _ ↦ true) s.service.1 s.service.2
  numbered : s.events.map Prod.fst = List.range' 1 s.sequence
  standing : Standing s

/-! ### Sending -/

variable {s t : EventStream}

theorem events_send (y : ChatStreamEvent) (after : AfterYield) :
    (s.send y after).events = s.events ++ [(s.sequence + 1, y)] := by
  rw [events, events, send, List.filterMap_append]
  exact rfl

theorem heard_send (y : ChatStreamEvent) (after : AfterYield) : (s.send y after).heard = s.heard ++ [y] := by
  rw [heard, heard, events_send, List.map_append]
  exact rfl

theorem numbered_send (h : s.events.map Prod.fst = List.range' 1 s.sequence) (y : ChatStreamEvent)
    (after : AfterYield) :
    (s.send y after).events.map Prod.fst = List.range' 1 (s.send y after).sequence := by
  have hsequence : (s.send y after).sequence = s.sequence + 1 := rfl
  rw [events_send, List.map_append, h, hsequence, List.range'_concat, Nat.one_mul, Nat.add_comm 1]
  exact rfl

end EventStream

end GenericApp
