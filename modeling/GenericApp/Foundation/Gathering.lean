import GenericApp.Foundation.Coroutine
import Mathlib.Data.List.Nodup

/-!
# Coroutines that are gathered over one session

Coroutines that are started together await statements on a session that they share, and other things. The session
serves one statement at a time: a statement that is started while another is in flight raises. What else is awaited
comes back with the same answer whenever it is asked.

`Gathering` is an operation that looks around, gathers coroutines, and makes its result of theirs, as
`asyncio.gather` does: the first of them that raises fails the operation, and the others go on. It is a machine
whose actions say who is resumed. The operation is `Sound` if no order of resumption has two statements in flight,
and if every order ends with the result of the order in which the coroutines are written, one after the other.

`sound_iff` says when that is so: at most one of the coroutines uses the session, and those that raise raise the
same. Nothing here knows what a statement is.
-/

/-- What a coroutine awaits: a statement on the session, or something else. -/
inductive Awaited (Q E : Type)
  | statement (q : Q)
  | elsewhere (e : E)

/-- What comes back. -/
def Awaited.Answer {Q E : Type} (A : Q → Type) (B : E → Type) : Awaited Q E → Type
  | .statement q => A q
  | .elsewhere e => B e

/-- A coroutine that has the session. -/
abbrev Reading {Q E : Type} (A : Q → Type) (B : E → Type) (X α : Type) : Type :=
  Coroutine (Awaited Q E) (Awaited.Answer A B) Empty X α

namespace Reading

variable {Q E : Type} {A : Q → Type} {B : E → Type} {X : Type}

def statement (q : Q) : Reading A B X (A q) :=
  @Coroutine.await (Awaited Q E) (Awaited.Answer A B) Empty X (.statement q)

def elsewhere (e : E) : Reading A B X (B e) :=
  @Coroutine.await (Awaited Q E) (Awaited.Answer A B) Empty X (.elsewhere e)

end Reading

/-- What the coroutines find: how the session executes a statement, what comes back from elsewhere, and what the
session raises when it is busy. -/
structure Surroundings {Q E : Type} (A : Q → Type) (B : E → Type) (X σ : Type) where
  execute : (q : Q) → σ → Except X (A q) × σ
  elsewhere : (e : E) → Except X (B e)
  busy : X

namespace Surroundings

variable {Q E : Type} {A : Q → Type} {B : E → Type} {X σ α β : Type} (S : Surroundings A B X σ)

/-- The result of a coroutine that has the session for itself, and the session after it. -/
def alone : Reading A B X α → σ → Except X α × σ
  | .done a, s => (.ok a, s)
  | .raised x, s => (.error x, s)
  | .call (.statement q) k, s => alone (k (S.execute q s).1) (S.execute q s).2
  | .call (.elsewhere e) k, s => alone (k (S.elsewhere e)) s
  | .emit y _, _ => y.elim

/-- The coroutine comes to a statement. -/
def usesSession : Reading A B X α → Bool
  | .done _ | .raised _ => false
  | .call (.statement _) _ => true
  | .call (.elsewhere e) k => usesSession (k (S.elsewhere e))
  | .emit y _ => y.elim

/-- The result of a coroutine that has no session. -/
def quietly : Coroutine E B Empty X α → Except X α
  | .done a => .ok a
  | .raised x => .error x
  | .call e k => quietly (k (S.elsewhere e))
  | .emit y _ => y.elim

theorem alone_of_not_usesSession {t : Reading A B X α} (h : S.usesSession t = false) (s : σ) :
    (S.alone t s).2 = s ∧ ∀ s', (S.alone t s').1 = (S.alone t s).1 := by
  induction t with
  | done a => exact ⟨rfl, fun _ ↦ rfl⟩
  | raised x => exact ⟨rfl, fun _ ↦ rfl⟩
  | call op k ih =>
    cases op with
    | statement q => exact nomatch h
    | elsewhere e => exact ih _ h
  | emit y k => exact y.elim

theorem alone_bind (t : Reading A B X β) (f : β → Reading A B X α) (s : σ) :
    S.alone (t >>= f) s = match S.alone t s with
      | (.ok b, s') => S.alone (f b) s'
      | (.error x, s') => (.error x, s') := by
  change S.alone (t.bind f) s = _
  induction t generalizing s with
  | done b => rfl
  | raised x => rfl
  | call op k ih =>
    cases op with
    | statement q => exact ih _ _
    | elsewhere e => exact ih _ s
  | emit y k => exact y.elim

theorem alone_tryCatch (t : Reading A B X α) (handle : X → Reading A B X α) (s : σ) :
    S.alone (t.tryCatch handle) s = match S.alone t s with
      | (.ok a, s') => (.ok a, s')
      | (.error x, s') => S.alone (handle x) s' := by
  induction t generalizing s with
  | done a => rfl
  | raised x => rfl
  | call op k ih =>
    cases op with
    | statement q => exact ih _ _
    | elsewhere e => exact ih _ s
  | emit y k => exact y.elim

theorem alone_call_elsewhere (e : E) (k : Except X (B e) → Reading A B X α) (s : σ) :
    S.alone (.call (.elsewhere e) k) s = S.alone (k (S.elsewhere e)) s := rfl

theorem usesSession_call_elsewhere (e : E) (k : Except X (B e) → Reading A B X α) :
    S.usesSession (.call (.elsewhere e) k) = S.usesSession (k (S.elsewhere e)) := rfl

theorem alone_elsewhere (e : E) (s : σ) : S.alone (Reading.elsewhere e) s = (S.elsewhere e, s) := by
  refine (S.alone_call_elsewhere e _ s).trans ?_
  rcases S.elsewhere e with x | b
  · rfl
  · rfl

theorem alone_elsewhere_bind (e : E) (f : B e → Reading A B X α) (s : σ) :
    S.alone (Reading.elsewhere e >>= f) s = match S.elsewhere e with
      | .ok b => S.alone (f b) s
      | .error x => (.error x, s) := by
  rw [alone_bind, alone_elsewhere]
  rcases S.elsewhere e with x | b
  · rfl
  · rfl

theorem usesSession_elsewhere_bind (e : E) (f : B e → Reading A B X α) :
    S.usesSession (Reading.elsewhere e >>= f) = true ↔
      ∃ b, S.elsewhere e = .ok b ∧ S.usesSession (f b) = true := by
  have h : S.usesSession (Reading.elsewhere e >>= f) = match S.elsewhere e with
      | .ok b => S.usesSession (f b)
      | .error _ => false := by
    refine (S.usesSession_call_elsewhere e _).trans ?_
    rcases S.elsewhere e with x | b
    · rfl
    · rfl
  rw [h]
  rcases S.elsewhere e with x | b
  · exact ⟨nofun, nofun⟩
  · exact ⟨fun huses ↦ ⟨b, rfl, huses⟩, fun ⟨_, hb, huses⟩ ↦ Except.ok.inj hb ▸ huses⟩

theorem usesSession_bind_of_quiet {t : Reading A B X β} {f : β → Reading A B X α}
    (hf : ∀ b, S.usesSession (f b) = false) : S.usesSession (t >>= f) = S.usesSession t := by
  change S.usesSession (t.bind f) = _
  induction t with
  | done b => exact hf b
  | raised x => rfl
  | call op k ih =>
    cases op with
    | statement q => rfl
    | elsewhere e => exact ih _
  | emit y k => exact y.elim

theorem usesSession_tryCatch_of_quiet {t : Reading A B X α} {handle : X → Reading A B X α}
    (hhandle : ∀ x, S.usesSession (handle x) = false) : S.usesSession (t.tryCatch handle) = S.usesSession t := by
  induction t with
  | done b => rfl
  | raised x => exact hhandle x
  | call op k ih =>
    cases op with
    | statement q => rfl
    | elsewhere e => exact ih _
  | emit y k => exact y.elim

theorem usesSession_map (t : Reading A B X β) (f : β → α) :
    S.usesSession (t >>= fun b ↦ pure (f b)) = S.usesSession t :=
  S.usesSession_bind_of_quiet fun _ ↦ rfl

theorem raises_map (t : Reading A B X β) (f : β → α) (s : σ) (x : X) :
    (S.alone (t >>= fun b ↦ pure (f b)) s).1 = .error x ↔ (S.alone t s).1 = .error x := by
  rw [alone_bind]
  rcases S.alone t s with ⟨y | a, s'⟩
  · exact ⟨fun h ↦ congrArg Except.error (Except.error.inj h), fun h ↦ congrArg Except.error (Except.error.inj h)⟩
  · exact ⟨nofun, nofun⟩

/-- What is handled by returning does not raise. -/
theorem alone_tryCatch_done (t : Reading A B X α) (f : X → α) (s : σ) :
    ∃ a, (S.alone (t.tryCatch fun x ↦ .done (f x)) s).1 = .ok a := by
  rw [alone_tryCatch]
  rcases S.alone t s with ⟨x | a, s'⟩
  · exact ⟨f x, rfl⟩
  · exact ⟨a, rfl⟩

end Surroundings

/-! ### Threads -/

/-- A coroutine that has been started: about to go on, waiting for the statement that it has started, or over. A
statement is refused if another was in flight when it was started. -/
inductive Thread {Q E : Type} (A : Q → Type) (B : E → Type) (X α : Type)
  | ready (t : Reading A B X α)
  | waiting (q : Q) (refused : Bool) (k : Except X (A q) → Reading A B X α)
  | ended (r : Except X α)

namespace Thread

variable {Q E : Type} {A : Q → Type} {B : E → Type} {X σ α : Type}

/-- A statement of the thread is in flight. -/
def inFlight : Thread A B X α → Bool
  | .waiting _ _ _ => true
  | .ready _ | .ended _ => false

/-- What the thread has returned. -/
def returned : Thread A B X α → Option α
  | .ended (.ok a) => some a
  | .ready _ | .waiting _ _ _ | .ended (.error _) => none

variable (S : Surroundings A B X σ)

/-- Resume the thread, where `taken` says whether a statement is in flight: the thread and the session after it. A
statement is executed when it comes back. -/
def resume (taken : Bool) : Thread A B X α → σ → Option (Thread A B X α × σ)
  | .ready (.done a), s => some (.ended (.ok a), s)
  | .ready (.raised x), s => some (.ended (.error x), s)
  | .ready (.call (.statement q) k), s => some (.waiting q taken k, s)
  | .ready (.call (.elsewhere e) k), s => some (.ready (k (S.elsewhere e)), s)
  | .ready (.emit y _), _ => y.elim
  | .waiting _ true k, s => some (.ready (k (.error S.busy)), s)
  | .waiting q false k, s => some (.ready (k (S.execute q s).1), (S.execute q s).2)
  | .ended _, _ => none

/-- What the thread raises by being over. -/
def raises : Thread A B X α → Option X
  | .ended (.error x) => some x
  | .ready _ | .waiting _ _ _ | .ended (.ok _) => none

/-- The thread has used the session or will. -/
def usesSession : Thread A B X α → Bool
  | .ready t => S.usesSession t
  | .waiting _ _ _ => true
  | .ended _ => false

/-- The result of the thread, and the session, if nobody else is resumed. -/
def alone : Thread A B X α → σ → Except X α × σ
  | .ready t, s => S.alone t s
  | .waiting _ true k, s => S.alone (k (.error S.busy)) s
  | .waiting q false k, s => S.alone (k (S.execute q s).1) (S.execute q s).2
  | .ended r, s => (r, s)

end Thread

namespace Thread

variable {Q E : Type} {A : Q → Type} {B : E → Type} {X σ α : Type} {S : Surroundings A B X σ}
variable {t : Thread A B X α} {taken : Bool} {s : σ} {r : Thread A B X α × σ}

/-- What a thread that is resumed may do, if its statements are not refused. -/
theorem resume_spec (htaken : t.usesSession S = true → t.inFlight = false → taken = false)
    (h : t.resume S taken s = some r) :
    r.1.alone S r.2 = t.alone S s ∧ (r.1.usesSession S = true → t.usesSession S = true) ∧
      (t.usesSession S = false → r.2 = s) := by
  cases t with
  | ready t =>
    cases t with
    | done a =>
      obtain rfl := Option.some.inj h
      exact ⟨rfl, fun huses ↦ (nomatch huses), fun _ ↦ rfl⟩
    | raised x =>
      obtain rfl := Option.some.inj h
      exact ⟨rfl, fun huses ↦ (nomatch huses), fun _ ↦ rfl⟩
    | call op k =>
      cases op with
      | statement q =>
        obtain rfl := Option.some.inj h
        obtain rfl := htaken rfl rfl
        exact ⟨rfl, fun _ ↦ rfl, fun huses ↦ nomatch huses⟩
      | elsewhere e =>
        obtain rfl := Option.some.inj h
        exact ⟨rfl, fun huses ↦ huses, fun _ ↦ rfl⟩
    | emit y k => exact y.elim
  | waiting q refused k =>
    cases refused with
    | true =>
      obtain rfl := Option.some.inj h
      exact ⟨rfl, fun _ ↦ rfl, fun huses ↦ nomatch huses⟩
    | false =>
      obtain rfl := Option.some.inj h
      exact ⟨rfl, fun _ ↦ rfl, fun huses ↦ nomatch huses⟩
  | ended r => exact nomatch h

theorem usesSession_of_inFlight (h : t.inFlight = true) : t.usesSession S = true := by
  cases t with
  | ready t => exact nomatch h
  | waiting q refused k => rfl
  | ended r => exact nomatch h

theorem alone_of_not_usesSession (h : t.usesSession S = false) (s s' : σ) :
    (t.alone S s').1 = (t.alone S s).1 := by
  cases t with
  | ready t => exact (S.alone_of_not_usesSession h s).2 s'
  | waiting q refused k => exact nomatch h
  | ended r => rfl

theorem alone_of_raises {x : X} (h : t.raises = some x) (s : σ) : (t.alone S s).1 = .error x := by
  cases t with
  | ready t => exact nomatch h
  | waiting q refused k => exact nomatch h
  | ended r =>
    cases r with
    | error y => exact congrArg Except.error (Option.some.inj h)
    | ok a => exact nomatch h

theorem alone_of_returned {a : α} (h : t.returned = some a) (s : σ) : (t.alone S s).1 = .ok a := by
  cases t with
  | ready t => exact nomatch h
  | waiting q refused k => exact nomatch h
  | ended r =>
    cases r with
    | error y => exact nomatch h
    | ok b => exact congrArg Except.ok (Option.some.inj h)

theorem over_of_resume (h : t.resume S taken s = none) : t.raises.isSome ∨ t.returned.isSome := by
  cases t with
  | ready t =>
    cases t with
    | done a => exact nomatch h
    | raised x => exact nomatch h
    | call op k =>
      cases op with
      | statement q => exact nomatch h
      | elsewhere e => exact nomatch h
    | emit y k => exact y.elim
  | waiting q refused k =>
    cases refused with
    | true => exact nomatch h
    | false => exact nomatch h
  | ended r =>
    cases r with
    | error x => exact .inl rfl
    | ok a => exact .inr rfl

end Thread

/-! ### The operation -/

/-- An operation that gathers coroutines. What comes `before` may end it with a result; what comes `after` is given
the results of the coroutines. `order` is the order in which they are written. -/
structure Gathering {Q E : Type} (A : Q → Type) (B : E → Type) (X : Type) {ι : Type} (Out : ι → Type)
    (α : Type) where
  before : Coroutine E B Empty X (Option α)
  order : List ι
  complete : ∀ i, i ∈ order
  nodup : order.Nodup
  reads : (i : ι) → Reading A B X (Out i)
  after : ((i : ι) → Out i) → Coroutine E B Empty X α

/-- How far the operation has come. -/
inductive Phase {E : Type} (B : E → Type) (X α : Type)
  | before (t : Coroutine E B Empty X (Option α))
  | gathering
  | after (t : Coroutine E B Empty X α)
  | ended (r : Except X α)

/-- The operation and its coroutines, which are `started` when it gathers them. `failed` is what the first of them
that has failed has raised. -/
structure Gathered {Q E : Type} (A : Q → Type) (B : E → Type) (X : Type) {ι : Type} (Out : ι → Type)
    (σ α : Type) where
  main : Phase B X α
  started : Bool
  threads : (i : ι) → Thread A B X (Out i)
  session : σ
  failed : Option X

namespace Gathered

variable {Q E : Type} {A : Q → Type} {B : E → Type} {X ι σ α : Type} {Out : ι → Type}

/-- At most one statement is in flight. -/
def Exclusive (g : Gathered A B X Out σ α) : Prop :=
  ∀ i j, (g.threads i).inFlight = true → (g.threads j).inFlight = true → i = j

variable [DecidableEq ι]

/-- One of the coroutines has been resumed. -/
def advance (g : Gathered A B X Out σ α) (i : ι) (r : Thread A B X (Out i) × σ) : Gathered A B X Out σ α :=
  { g with
    threads := Function.update g.threads i r.1
    session := r.2
    failed := g.failed.or r.1.raises }

variable (g : Gathered A B X Out σ α) {i j : ι} (r : Thread A B X (Out i) × σ)

@[simp] theorem threads_advance_self : (g.advance i r).threads i = r.1 := by
  dsimp only [advance]
  exact Function.update_self i r.1 g.threads

@[simp] theorem session_advance : (g.advance i r).session = r.2 := rfl

@[simp] theorem failed_advance : (g.advance i r).failed = g.failed.or r.1.raises := rfl

theorem threads_advance_of_ne (h : j ≠ i) : (g.advance i r).threads j = g.threads j := by
  dsimp only [advance]
  exact Function.update_of_ne h r.1 g.threads

end Gathered

namespace Gathering

variable {Q E : Type} {A : Q → Type} {B : E → Type} {X ι σ α : Type} {Out : ι → Type} [DecidableEq ι]
variable (S : Surroundings A B X σ) (G : Gathering A B X Out α)

/-- The results of all the coroutines, once they have all returned. -/
def results (g : Gathered A B X Out σ α) : Option ((i : ι) → Out i) :=
  if h : ∀ i ∈ G.order, (g.threads i).returned.isSome then
    some fun i ↦ (g.threads i).returned.get (h i (G.complete i))
  else none

/-- Resume the operation itself. -/
def resumeMain (g : Gathered A B X Out σ α) : Option (Gathered A B X Out σ α) :=
  match g.main with
  | .before (.done (some a)) => some { g with main := .ended (.ok a) }
  | .before (.done none) => some { g with main := .gathering, started := true }
  | .before (.raised x) => some { g with main := .ended (.error x) }
  | .before (.call e k) => some { g with main := .before (k (S.elsewhere e)) }
  | .before (.emit y _) => y.elim
  | .gathering =>
    match g.failed with
    | some x => some { g with main := .ended (.error x) }
    | none => (G.results g).map fun f ↦ { g with main := .after (G.after f) }
  | .after (.done a) => some { g with main := .ended (.ok a) }
  | .after (.raised x) => some { g with main := .ended (.error x) }
  | .after (.call e k) => some { g with main := .after (k (S.elsewhere e)) }
  | .after (.emit y _) => y.elim
  | .ended _ => none

/-- A statement is in flight. -/
def taken (g : Gathered A B X Out σ α) : Bool := G.order.any fun i ↦ (g.threads i).inFlight

/-- Resume the operation (`none`) or one of its coroutines. -/
def step (g : Gathered A B X Out σ α) : Option ι → Option (Gathered A B X Out σ α)
  | none => G.resumeMain S g
  | some i =>
    if g.started then ((g.threads i).resume S (G.taken g) g.session).map (g.advance i) else none

/-- Where the operation begins. -/
def start (s : σ) : Gathered A B X Out σ α where
  main := .before G.before
  started := false
  threads i := .ready (G.reads i)
  session := s
  failed := none

def machine (s : σ) : Machine (Gathered A B X Out σ α) (Option ι) where
  init g := g = G.start s
  step := G.step S

/-- The results of some of the coroutines, run one after the other. -/
def inTurn : (l : List ι) → σ → Except X ((i : ι) → i ∈ l → Out i)
  | [], _ => .ok fun _ h ↦ absurd h List.not_mem_nil
  | i :: l, s =>
    match S.alone (G.reads i) s with
    | (.error x, _) => .error x
    | (.ok a, s') =>
      match inTurn l s' with
      | .error x => .error x
      | .ok f => .ok fun j hj ↦ if h : j = i then h ▸ a else f j (List.mem_of_ne_of_mem h hj)

/-- The result of the operation if its coroutines are run one after the other. -/
def sequential (s : σ) : Except X α :=
  match S.quietly G.before with
  | .error x => .error x
  | .ok (some a) => .ok a
  | .ok none =>
    match G.inTurn S G.order s with
    | .error x => .error x
    | .ok f => S.quietly (G.after fun i ↦ f i (G.complete i))

/-- In whatever order who is resumed, at most one statement is in flight, and the operation ends with the result
that it has if its coroutines are run one after the other. -/
def Sound (S : Surroundings A B X σ) (G : Gathering A B X Out α) (s : σ) : Prop :=
  ∀ g, (G.machine S s).Reachable Machine.anyStep g →
    g.Exclusive ∧ (∀ r, g.main = .ended r → r = G.sequential S s) ∧
      ((∀ a, G.step S g a = none) → g.main = .ended (G.sequential S s))

/-- At most one of the coroutines uses the session, and those that raise, each by itself, raise the same. -/
structure Apart (S : Surroundings A B X σ) (G : Gathering A B X Out α) (s : σ) : Prop where
  one : ∀ i j, S.usesSession (G.reads i) = true → S.usesSession (G.reads j) = true → i = j
  same : ∀ i j x y, (S.alone (G.reads i) s).1 = .error x → (S.alone (G.reads j) s).1 = .error y → x = y

variable {S : Surroundings A B X σ} {G : Gathering A B X Out α} {s : σ}

/-! ### One after the other -/

omit [DecidableEq ι] in
theorem alone_after (hone : ∀ i j, S.usesSession (G.reads i) = true → S.usesSession (G.reads j) = true → i = j)
    {i j : ι} (hij : i ≠ j) (s : σ) :
    (S.alone (G.reads j) (S.alone (G.reads i) s).2).1 = (S.alone (G.reads j) s).1 := by
  rcases hi : S.usesSession (G.reads i) with - | -
  · rw [(S.alone_of_not_usesSession hi s).1]
  · have hj : S.usesSession (G.reads j) = false := by
      rcases hj : S.usesSession (G.reads j) with - | -
      · rfl
      · exact absurd (hone i j hi hj) hij
    exact (S.alone_of_not_usesSession hj s).2 _

/-- Where at most one coroutine uses the session, the results in turn are those that each has by itself. -/
theorem inTurn_eq (hone : ∀ i j, S.usesSession (G.reads i) = true → S.usesSession (G.reads j) = true → i = j)
    {l : List ι} (hl : l.Nodup) (s : σ) :
    (∃ f, G.inTurn S l s = .ok f ∧ ∀ i hi, (S.alone (G.reads i) s).1 = .ok (f i hi)) ∨
      ∃ i ∈ l, ∃ x, (S.alone (G.reads i) s).1 = .error x ∧ G.inTurn S l s = .error x := by
  induction l generalizing s with
  | nil => exact .inl ⟨_, rfl, fun i hi ↦ absurd hi List.not_mem_nil⟩
  | cons i l ih =>
    rw [inTurn]
    rcases halone : S.alone (G.reads i) s with ⟨x | a, s'⟩
    · exact .inr ⟨i, List.mem_cons_self, x, congrArg Prod.fst halone, rfl⟩
    · dsimp only
      have hafter : ∀ j ≠ i, (S.alone (G.reads j) s').1 = (S.alone (G.reads j) s).1 := by
        intro j hj
        have h := alone_after hone hj.symm s
        rwa [halone] at h
      rcases ih (List.nodup_cons.1 hl).2 s' with ⟨f, hf, hresult⟩ | ⟨j, hmem, x, hj, hx⟩
      · rw [hf]
        refine .inl ⟨_, rfl, fun j hj ↦ ?_⟩
        by_cases h : j = i
        · subst h
          rw [dif_pos rfl, halone]
        · rw [dif_neg h, ← hafter j h]
          exact hresult j _
      · have hne : j ≠ i := by
          rintro rfl
          exact (List.nodup_cons.1 hl).1 hmem
        rw [hx]
        exact .inr ⟨j, List.mem_cons_of_mem i hmem, x, (hafter j hne).symm.trans hj, rfl⟩

/-! ### In any order -/

/-- What the operation has before it. -/
def Ahead (S : Surroundings A B X σ) (G : Gathering A B X Out α) (s : σ) (started : Bool) : Phase B X α → Prop
  | .before t => S.quietly t = S.quietly G.before
  | .gathering => started = true
  | .after t => S.quietly t = G.sequential S s
  | .ended r => r = G.sequential S s

/-- What holds however far the operation has come. -/
structure Coherent (S : Surroundings A B X σ) (G : Gathering A B X Out α) (s : σ) (g : Gathered A B X Out σ α) :
    Prop where
  idle : g.started = false → g = { G.start s with main := g.main }
  gathers : g.started = true → S.quietly G.before = .ok none
  uses : ∀ i, (g.threads i).usesSession S = true → S.usesSession (G.reads i) = true
  alone : ∀ i, ((g.threads i).alone S g.session).1 = (S.alone (G.reads i) s).1
  failed : ∀ x, g.failed = some x → ∃ i, (S.alone (G.reads i) s).1 = .error x
  recorded : ∀ i, (g.threads i).raises.isSome → g.failed.isSome
  main : Ahead S G s g.started g.main

theorem coherent_start : Coherent S G s (G.start s) where
  idle _ := rfl
  gathers h := nomatch h
  uses _ h := h
  alone _ := rfl
  failed _ h := nomatch h
  recorded _ h := nomatch h
  main := rfl

theorem Coherent.exclusive {g : Gathered A B X Out σ α} (h : Coherent S G s g)
    (hapart : S.quietly G.before = .ok none → Apart S G s) : g.Exclusive := by
  intro i j hi hj
  rcases hstarted : g.started with - | -
  · rw [h.idle hstarted] at hi
    exact nomatch hi
  · exact (hapart (h.gathers hstarted)).one i j (h.uses i (Thread.usesSession_of_inFlight hi))
      (h.uses j (Thread.usesSession_of_inFlight hj))

/-- What one of the coroutines does when it is resumed. -/
theorem Coherent.resume {g : Gathered A B X Out σ α} (h : Coherent S G s g)
    (hapart : S.quietly G.before = .ok none → Apart S G s) {i : ι} (hstarted : g.started = true)
    {r : Thread A B X (Out i) × σ} (hr : (g.threads i).resume S (G.taken g) g.session = some r) :
    Coherent S G s (g.advance i r) := by
  have hone := (hapart (h.gathers hstarted)).one
  have htaken : (g.threads i).usesSession S = true → (g.threads i).inFlight = false → G.taken g = false := by
    intro huses hidle
    refine Bool.eq_false_iff.2 fun hany ↦ ?_
    obtain ⟨j, -, hj⟩ := List.any_eq_true.1 hany
    have hij : i = j := hone i j (h.uses i huses) (h.uses j (Thread.usesSession_of_inFlight hj))
    rw [hij, hj] at hidle
    exact nomatch hidle
  obtain ⟨halone, huses, hsession⟩ := Thread.resume_spec htaken hr
  have hresult : (r.1.alone S r.2).1 = (S.alone (G.reads i) s).1 := (congrArg Prod.fst halone).trans (h.alone i)
  refine ⟨fun hidle ↦ absurd (hstarted.symm.trans hidle) nofun, h.gathers, ?_, ?_, ?_, ?_, h.main⟩
  · intro j hj
    by_cases hji : j = i
    · subst hji
      rw [Gathered.threads_advance_self] at hj
      exact h.uses j (huses hj)
    · rw [g.threads_advance_of_ne r hji] at hj
      exact h.uses j hj
  · intro j
    by_cases hji : j = i
    · subst hji
      rw [Gathered.threads_advance_self]
      exact hresult
    · rw [g.threads_advance_of_ne r hji]
      rcases hi : (g.threads i).usesSession S with - | -
      · rw [Gathered.session_advance, hsession hi]
        exact h.alone j
      · -- the other one has no use for the session, whatever it is now
        have hj : (g.threads j).usesSession S = false := by
          refine Bool.eq_false_iff.2 fun hj ↦ hji ?_
          exact hone j i (h.uses j hj) (h.uses i hi)
        exact (Thread.alone_of_not_usesSession hj g.session r.2).trans (h.alone j)
  · intro x hx
    rw [Gathered.failed_advance] at hx
    rcases hfailed : g.failed with - | y
    · rw [hfailed] at hx
      exact ⟨i, hresult.symm.trans (Thread.alone_of_raises hx r.2)⟩
    · rw [hfailed] at hx
      exact h.failed x (hfailed.trans hx)
  · intro j hj
    rw [Gathered.failed_advance]
    by_cases hji : j = i
    · subst hji
      rw [Gathered.threads_advance_self] at hj
      rw [Option.isSome_or, hj, Bool.or_true]
    · rw [g.threads_advance_of_ne r hji] at hj
      rw [Option.isSome_or, h.recorded j hj, Bool.true_or]

/-- The operation fails with what the coroutines raise, if it does. -/
theorem sequential_of_failed (hbefore : S.quietly G.before = .ok none) (hapart : Apart S G s) {i : ι} {x : X}
    (h : (S.alone (G.reads i) s).1 = .error x) : G.sequential S s = .error x := by
  unfold sequential
  rw [hbefore]
  dsimp only
  rcases inTurn_eq hapart.one G.nodup s with ⟨f, -, hf⟩ | ⟨j, -, y, hj, hy⟩
  · exact nomatch h.symm.trans (hf i (G.complete i))
  · rw [hy, hapart.same i j x y h hj]

/-- The operation goes on with what the coroutines return, if they all do. -/
theorem sequential_of_results (hbefore : S.quietly G.before = .ok none) (hapart : Apart S G s)
    {f : (i : ι) → Out i} (h : ∀ i, (S.alone (G.reads i) s).1 = .ok (f i)) :
    G.sequential S s = S.quietly (G.after f) := by
  unfold sequential
  rw [hbefore]
  dsimp only
  rcases inTurn_eq hapart.one G.nodup s with ⟨f', hf', hresult⟩ | ⟨j, -, y, hj, -⟩
  · have heq : (fun i ↦ f' i (G.complete i)) = f := by
      funext i
      exact Except.ok.inj ((hresult i (G.complete i)).symm.trans (h i))
    rw [hf']
    dsimp only
    rw [heq]
  · exact nomatch hj.symm.trans (h j)

/-- The operation goes on by itself. -/
theorem Coherent.toMain {g : Gathered A B X Out σ α} (h : Coherent S G s g) (main : Phase B X α)
    (hmain : Ahead S G s g.started main) : Coherent S G s { g with main := main } where
  idle hidle := by rw [h.idle hidle]
  gathers := h.gathers
  uses := h.uses
  alone := h.alone
  failed := h.failed
  recorded := h.recorded
  main := hmain

omit [DecidableEq ι] in
theorem returned_of_results {g : Gathered A B X Out σ α} {f : (i : ι) → Out i} (h : G.results g = some f) (i : ι) :
    (g.threads i).returned = some (f i) := by
  rw [results] at h
  split at h
  · obtain rfl := Option.some.inj h
    exact (Option.some_get _).symm
  · exact nomatch h

theorem sequential_of_before {r : Except X (Option α)} (hbefore : S.quietly G.before = r) :
    (∀ x, r = .error x → G.sequential S s = .error x) ∧ ∀ a, r = .ok (some a) → G.sequential S s = .ok a := by
  subst hbefore
  refine ⟨fun x hx ↦ ?_, fun a ha ↦ ?_⟩
  · rw [sequential, hx]
  · rw [sequential, ha]

theorem Coherent.resumeMain {g g' : Gathered A B X Out σ α} (h : Coherent S G s g)
    (hapart : S.quietly G.before = .ok none → Apart S G s) (hg' : G.resumeMain S g = some g') :
    Coherent S G s g' := by
  have hmain := h.main
  unfold Gathering.resumeMain at hg'
  rcases hphase : g.main with t | _ | t | r
  · rw [hphase] at hg' hmain
    cases t with
    | done found =>
      cases found with
      | none =>
        obtain rfl := Option.some.inj hg'
        exact ⟨nofun, fun _ ↦ hmain.symm, h.uses, h.alone, h.failed, h.recorded, rfl⟩
      | some a =>
        obtain rfl := Option.some.inj hg'
        exact h.toMain (.ended _) ((sequential_of_before hmain.symm).2 a rfl).symm
    | raised x =>
      obtain rfl := Option.some.inj hg'
      exact h.toMain (.ended _) ((sequential_of_before hmain.symm).1 x rfl).symm
    | call e k =>
      obtain rfl := Option.some.inj hg'
      exact h.toMain _ hmain
    | emit y k => exact y.elim
  · rw [hphase] at hg' hmain
    have hbefore : S.quietly G.before = .ok none := h.gathers hmain
    dsimp only at hg'
    split at hg'
    · next x hfailed =>
      obtain rfl := Option.some.inj hg'
      obtain ⟨i, hi⟩ := h.failed x hfailed
      exact h.toMain (.ended _) (sequential_of_failed hbefore (hapart hbefore) hi).symm
    · next hfailed =>
      obtain ⟨f, hf, rfl⟩ := Option.map_eq_some_iff.1 hg'
      refine h.toMain (.after _) (sequential_of_results hbefore (hapart hbefore) fun i ↦ ?_).symm
      exact (h.alone i).symm.trans (Thread.alone_of_returned (returned_of_results hf i) g.session)
  · rw [hphase] at hg' hmain
    cases t with
    | done a =>
      obtain rfl := Option.some.inj hg'
      exact h.toMain _ hmain
    | raised x =>
      obtain rfl := Option.some.inj hg'
      exact h.toMain _ hmain
    | call e k =>
      obtain rfl := Option.some.inj hg'
      exact h.toMain _ hmain
    | emit y k => exact y.elim
  · rw [hphase] at hg'
    exact nomatch hg'

theorem Coherent.step {g g' : Gathered A B X Out σ α} (h : Coherent S G s g)
    (hapart : S.quietly G.before = .ok none → Apart S G s) {a : Option ι} (hg' : G.step S g a = some g') :
    Coherent S G s g' := by
  cases a with
  | none => exact h.resumeMain hapart hg'
  | some i =>
    rw [Gathering.step] at hg'
    split at hg'
    · next hstarted =>
      obtain ⟨r, hr, rfl⟩ := Option.map_eq_some_iff.1 hg'
      exact h.resume hapart hstarted hr
    · exact nomatch hg'

/-- Where nobody can be resumed, the operation has ended. -/
theorem Coherent.ended {g : Gathered A B X Out σ α} (h : Coherent S G s g) (hstuck : ∀ a, G.step S g a = none) :
    g.main = .ended (G.sequential S s) := by
  have hmain := h.main
  have hnone : G.resumeMain S g = none := hstuck none
  unfold Gathering.resumeMain at hnone
  rcases hphase : g.main with t | _ | t | r
  · rw [hphase] at hnone
    rcases t with (_ | a) | x | ⟨e, k⟩ | ⟨y, k⟩
    · exact nomatch hnone
    · exact nomatch hnone
    · exact nomatch hnone
    · exact nomatch hnone
    · exact y.elim
  · rw [hphase] at hnone hmain
    have hover : ∀ i, (g.threads i).raises.isSome ∨ (g.threads i).returned.isSome := by
      intro i
      have hi : G.step S g (some i) = none := hstuck (some i)
      have hstarted : g.started = true := hmain
      rw [Gathering.step, if_pos hstarted] at hi
      exact Thread.over_of_resume (Option.map_eq_none_iff.1 hi)
    rcases hfailed : g.failed with - | x
    · rw [hfailed] at hnone
      have hreturned : ∀ i ∈ G.order, (g.threads i).returned.isSome := by
        intro i _
        rcases hover i with hraises | hreturned
        · have hrecorded := h.recorded i hraises
          rw [hfailed] at hrecorded
          exact nomatch hrecorded
        · exact hreturned
      have hresults := Option.map_eq_none_iff.1 hnone
      rw [results, dif_pos hreturned] at hresults
      exact nomatch hresults
    · rw [hfailed] at hnone
      exact nomatch hnone
  · rw [hphase] at hnone
    rcases t with a | x | ⟨e, k⟩ | ⟨y, k⟩
    · exact nomatch hnone
    · exact nomatch hnone
    · exact nomatch hnone
    · exact y.elim
  · rw [hphase] at hmain
    rw [hmain]

theorem sound_of_apart (hapart : S.quietly G.before = .ok none → Apart S G s) : G.Sound S s := by
  intro g hg
  have h : Coherent S G s g := hg.invariant
    (by rintro _ rfl; exact coherent_start) fun _ _ _ h _ hstep ↦ h.step hapart hstep
  refine ⟨h.exclusive hapart, fun r hr ↦ ?_, h.ended⟩
  have hmain := h.main
  rw [hr] at hmain
  exact hmain

/-! ### What goes wrong -/

theorem later_before {t : Coroutine E B Empty X (Option α)} {g : Gathered A B X Out σ α} (hg : g.main = .before t)
    (ht : S.quietly t = .ok none) :
    (G.machine S s).Later Machine.anyStep g { g with main := .gathering, started := true } := by
  induction t generalizing g with
  | done found =>
    obtain rfl := Except.ok.inj ht
    refine Machine.Later.single (a := none) trivial ?_
    change G.resumeMain S g = _
    unfold Gathering.resumeMain
    rw [hg]
  | raised x => exact nomatch ht
  | call e k ih =>
    have hstep : (G.machine S s).step g none = some { g with main := .before (k (S.elsewhere e)) } := by
      change G.resumeMain S g = _
      unfold Gathering.resumeMain
      rw [hg]
    exact (Machine.Later.single trivial hstep).trans (ih _ rfl ht)
  | emit y k => exact y.elim

theorem step_thread {g : Gathered A B X Out σ α} (hstarted : g.started = true) {i : ι}
    {r : Thread A B X (Out i) × σ} (hr : (g.threads i).resume S (G.taken g) g.session = some r) :
    (G.machine S s).Later Machine.anyStep g (g.advance i r) := by
  refine Machine.Later.single (a := some i) trivial ?_
  change G.step S g (some i) = _
  rw [Gathering.step, if_pos hstarted, hr, Option.map_some]

/-- A coroutine that uses the session comes to its first statement, whatever the others are at. -/
theorem later_inFlight {i : ι} {t : Reading A B X (Out i)} {g : Gathered A B X Out σ α} (hstarted : g.started = true)
    (hi : g.threads i = .ready t) (ht : S.usesSession t = true) :
    ∃ g', (G.machine S s).Later Machine.anyStep g g' ∧ g'.started = true ∧ (g'.threads i).inFlight = true ∧
      ∀ j ≠ i, g'.threads j = g.threads j := by
  induction t generalizing g with
  | done a => exact nomatch ht
  | raised x => exact nomatch ht
  | call op k ih =>
    cases op with
    | statement q =>
      have hr : (g.threads i).resume S (G.taken g) g.session = some (.waiting q (G.taken g) k, g.session) := by
        rw [hi]
        rfl
      refine ⟨_, step_thread hstarted hr, hstarted, ?_, fun j hj ↦ g.threads_advance_of_ne _ hj⟩
      rw [Gathered.threads_advance_self]
      rfl
    | elsewhere e =>
      have hr : (g.threads i).resume S (G.taken g) g.session = some (.ready (k (S.elsewhere e)), g.session) := by
        rw [hi]
        rfl
      obtain ⟨g', hlater, hstarted', hflight, hothers⟩ :=
        ih _ (g := g.advance i (.ready (k (S.elsewhere e)), g.session)) hstarted
          (g.threads_advance_self (i := i) _) ht
      refine ⟨g', (step_thread hstarted hr).trans hlater, hstarted', hflight, fun j hj ↦ ?_⟩
      rw [hothers j hj, g.threads_advance_of_ne _ hj]
  | emit y k => exact y.elim

omit [DecidableEq ι] in
theorem taken_eq_false {g : Gathered A B X Out σ α} (h : ∀ j, (g.threads j).inFlight = false) :
    G.taken g = false := by
  refine Bool.eq_false_iff.2 fun hany ↦ ?_
  obtain ⟨j, -, hj⟩ := List.any_eq_true.1 hany
  rw [h j] at hj
  exact nomatch hj

theorem idle_advance {g : Gathered A B X Out σ α} {i : ι} {r : Thread A B X (Out i) × σ}
    (hidle : ∀ j ≠ i, (g.threads j).inFlight = false) (hr : r.1.inFlight = false) (j : ι) :
    ((g.advance i r).threads j).inFlight = false := by
  by_cases hj : j = i
  · subst hj
    rw [Gathered.threads_advance_self, hr]
  · rw [g.threads_advance_of_ne r hj, hidle j hj]

/-- A coroutine that raises, with nobody else resumed meanwhile, fails the operation. -/
theorem later_failed {i : ι} {t : Reading A B X (Out i)} {g : Gathered A B X Out σ α} {x : X}
    (hstarted : g.started = true) (hi : g.threads i = .ready t) (hidle : ∀ j, (g.threads j).inFlight = false)
    (ht : (S.alone t g.session).1 = .error x) :
    ∃ g', (G.machine S s).Later Machine.anyStep g g' ∧ g'.main = g.main ∧ g'.failed = g.failed.or (some x) := by
  induction t generalizing g with
  | done a => exact nomatch ht
  | raised y =>
    obtain rfl := Except.error.inj ht
    have hr : (g.threads i).resume S (G.taken g) g.session = some (.ended (.error y), g.session) := by
      rw [hi]
      rfl
    exact ⟨_, step_thread hstarted hr, rfl, rfl⟩
  | call op k ih =>
    cases op with
    | statement q =>
      have hr : (g.threads i).resume S (G.taken g) g.session = some (.waiting q false k, g.session) := by
        rw [hi, taken_eq_false hidle]
        rfl
      let g₁ := g.advance i (.waiting q false k, g.session)
      have hr₁ : (g₁.threads i).resume S (G.taken g₁) g₁.session =
          some (.ready (k (S.execute q g.session).1), (S.execute q g.session).2) := by
        rw [show g₁.threads i = .waiting q false k from g.threads_advance_self _]
        rfl
      have hidle₁ : ∀ j ≠ i, (g₁.threads j).inFlight = false := fun j hj ↦ by
        rw [show g₁.threads j = g.threads j from g.threads_advance_of_ne _ hj, hidle j]
      obtain ⟨g', hlater, hmain, hfailed⟩ :=
        ih _ (g := g₁.advance i (.ready (k (S.execute q g.session).1), (S.execute q g.session).2)) hstarted
          (Gathered.threads_advance_self _ _) (idle_advance hidle₁ rfl) ht
      have hlater₁ := (step_thread (s := s) hstarted hr).trans (step_thread (g := g₁) hstarted hr₁)
      refine ⟨g', hlater₁.trans hlater, hmain, ?_⟩
      rw [hfailed, Gathered.failed_advance, Gathered.failed_advance]
      exact congrArg (Option.or · (some x)) ((Option.or_none).trans Option.or_none)
    | elsewhere e =>
      have hr : (g.threads i).resume S (G.taken g) g.session = some (.ready (k (S.elsewhere e)), g.session) := by
        rw [hi]
        rfl
      obtain ⟨g', hlater, hmain, hfailed⟩ :=
        ih _ (g := g.advance i (.ready (k (S.elsewhere e)), g.session)) hstarted
          (Gathered.threads_advance_self _ _) (idle_advance (fun j _ ↦ hidle j) rfl) ht
      refine ⟨g', (step_thread hstarted hr).trans hlater, hmain, ?_⟩
      rw [hfailed, Gathered.failed_advance]
      exact congrArg (Option.or · (some x)) Option.or_none
  | emit y k => exact y.elim

/-- Two coroutines that use the session have each come to a statement, in some order. -/
theorem one_of_sound (h : G.Sound S s) (hbefore : S.quietly G.before = .ok none) {i j : ι}
    (hi : S.usesSession (G.reads i) = true) (hj : S.usesSession (G.reads j) = true) : i = j := by
  by_contra hij
  have hgather := later_before (S := S) (G := G) (s := s) (g := G.start s) rfl hbefore
  obtain ⟨g, hlater, hstarted, hflight, hothers⟩ := later_inFlight (s := s) (i := i)
    (g := { G.start s with main := .gathering, started := true }) rfl rfl hi
  obtain ⟨g', hlater', -, hflight', hothers'⟩ := later_inFlight (s := s) (i := j) hstarted
    (hothers j (Ne.symm hij)) hj
  have hreach : (G.machine S s).Reachable Machine.anyStep g' :=
    ⟨G.start s, rfl, (hgather.trans hlater).trans hlater'⟩
  have hflight : (g'.threads i).inFlight = true := by rw [hothers' i hij, hflight]
  exact hij ((h g' hreach).1 i j hflight hflight')

/-- What a coroutine raises by itself is what the operation raises. -/
theorem sequential_of_sound (h : G.Sound S s) (hbefore : S.quietly G.before = .ok none) {i : ι} {x : X}
    (hi : (S.alone (G.reads i) s).1 = .error x) : G.sequential S s = .error x := by
  have hgather := later_before (S := S) (G := G) (s := s) (g := G.start s) rfl hbefore
  obtain ⟨g, hlater, hmain, hfailed⟩ := later_failed (s := s) (i := i)
    (g := { G.start s with main := .gathering, started := true }) rfl rfl (fun _ ↦ rfl) hi
  have hstep : (G.machine S s).step g none = some { g with main := .ended (.error x) } := by
    change G.resumeMain S g = _
    unfold Gathering.resumeMain
    rw [hmain]
    dsimp only
    rw [hfailed]
    rfl
  have hreach : (G.machine S s).Reachable Machine.anyStep { g with main := .ended (.error x) } :=
    ⟨G.start s, rfl, (hgather.trans hlater).trans (Machine.Later.single trivial hstep)⟩
  exact ((h _ hreach).2.1 _ rfl).symm

/-- An operation is sound if and only if, where it comes to gather its coroutines, at most one of them uses the
session and those that raise raise the same. -/
theorem sound_iff : G.Sound S s ↔ (S.quietly G.before = .ok none → Apart S G s) := by
  constructor
  · intro h hbefore
    refine ⟨fun i j hi hj ↦ one_of_sound h hbefore hi hj, fun i j x y hx hy ↦ ?_⟩
    have heq := (sequential_of_sound h hbefore hx).symm.trans (sequential_of_sound h hbefore hy)
    exact Except.error.inj heq
  · exact sound_of_apart

end Gathering
