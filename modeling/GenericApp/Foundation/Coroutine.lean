import GenericApp.Foundation.Machine

/-!
# Coroutines that await, yield and handle exceptions

A coroutine is the tree of what it does next: it returns, raises, calls an operation and goes on with what comes
back, or yields and goes on when it is resumed. A call comes back with an answer or with an exception, and an
exception may be thrown in where the coroutine has yielded; `tryCatch` and `tryFinally` say who handles it. An
asynchronous generator that is iterated by another (`foldEach`) is resumed for its next value, and left where it
stands when the other one is.

How the calls act on a state is the matter of a `World`, and `World.machine` is the coroutine as a machine, whose
inputs are the answers, the exceptions and the resumptions. A call that raises may have had its effect all the
same.

`Safe` is the logic for such machines. A `Contract` says which exceptions have to be reckoned with, what every step
does to the state, what holds where the coroutine yields, and what may happen to the state until it is resumed.
There is a rule for each way of putting coroutines together, and `Safe.later` is what the rules are for: from a
state in which a coroutine is safe, every run that meets the contract keeps it safe. The rules of `Keeps` are the
same for parts that keep an invariant.
-/

/-- What a coroutine does next. `Y` is what it yields and `X` are the exceptions. -/
inductive Coroutine (Op : Type) (Ans : Op → Type) (Y X α : Type)
  | done (a : α)
  | raised (x : X)
  | call (op : Op) (k : Except X (Ans op) → Coroutine Op Ans Y X α)
  | emit (y : Y) (k : Option X → Coroutine Op Ans Y X α)

namespace Coroutine

variable {Op : Type} {Ans : Op → Type} {Y Z X α β : Type}

/-! ### Putting coroutines together -/

def bind : Coroutine Op Ans Y X α → (α → Coroutine Op Ans Y X β) → Coroutine Op Ans Y X β
  | .done a, f => f a
  | .raised x, _ => .raised x
  | .call op k, f => .call op fun r ↦ (k r).bind f
  | .emit y k, f => .emit y fun x ↦ (k x).bind f

instance : Monad (Coroutine Op Ans Y X) where
  pure := .done
  bind := .bind

/-- Call an operation; an exception goes on to the caller. -/
def await (op : Op) : Coroutine Op Ans Y X (Ans op) :=
  .call op fun
    | .ok a => .done a
    | .error x => .raised x

def yieldOne (y : Y) : Coroutine Op Ans Y X Unit :=
  .emit y fun
    | none => .done ()
    | some x => .raised x

def yieldAll : List Y → Coroutine Op Ans Y X Unit
  | [] => .done ()
  | y :: ys => (yieldOne y).bind fun _ ↦ yieldAll ys

/-- `if c: t` -/
def when (t : Coroutine Op Ans Y X Unit) (c : Prop) [Decidable c] : Coroutine Op Ans Y X Unit :=
  if c then t else .done ()

/-- `try: t except: handle`. A handler gives back what it does not handle. -/
def tryCatch : Coroutine Op Ans Y X α → (X → Coroutine Op Ans Y X α) → Coroutine Op Ans Y X α
  | .done a, _ => .done a
  | .raised x, handle => handle x
  | .call op k, handle => .call op fun r ↦ (k r).tryCatch handle
  | .emit y k, handle => .emit y fun x ↦ (k x).tryCatch handle

/-- `try: t finally: close` -/
def tryFinally : Coroutine Op Ans Y X α → Coroutine Op Ans Y X Unit → Coroutine Op Ans Y X α
  | .done a, close => close.bind fun _ ↦ .done a
  | .raised x, close => close.bind fun _ ↦ .raised x
  | .call op k, close => .call op fun r ↦ (k r).tryFinally close
  | .emit y k, close => .emit y fun x ↦ (k x).tryFinally close

/-- `async for z in t: b = body(b, z)`. Where the body raises, `t` is left where it has yielded. -/
def foldEach (body : β → Z → Coroutine Op Ans Y X β) :
    Coroutine Op Ans Z X Unit → β → Coroutine Op Ans Y X β
  | .done _, b => .done b
  | .raised x, _ => .raised x
  | .call op k, b => .call op fun r ↦ (k r).foldEach body b
  | .emit z k, b => (body b z).bind fun b ↦ (k none).foldEach body b

/-- `async for y in t: yield y` -/
def delegate (t : Coroutine Op Ans Y X Unit) : Coroutine Op Ans Y X Unit :=
  t.foldEach (fun _ y ↦ yieldOne y) ()

/-- The coroutine has returned or raised. -/
def Over : Coroutine Op Ans Y X α → Prop
  | .done _ | .raised _ => True
  | .call _ _ | .emit _ _ => False

end Coroutine

/-! ### Running a coroutine -/

/-- What calls do to the state, which exceptions they may come back with, and what being resumed after a yield does
to the state. -/
structure World (Op Y X σ : Type) where
  effect : Op → σ → σ
  raisable : Op → X → Prop
  spoken : Y → σ → σ

/-- What the surroundings do: answer a call, let it raise before or after its effect, resume the coroutine, or
throw an exception in. -/
inductive Input (Op : Type) (Ans : Op → Type) (X : Type)
  | returns (answer : (op : Op) → Ans op)
  | raises (x : X) (late : Bool)
  | resume
  | throws (x : X)

namespace World

variable {Op : Type} {Ans : Op → Type} {Y X σ α : Type}
variable (W : World Op Y X σ) [∀ op x, Decidable (W.raisable op x)]

/-- The state that a call which raises leaves. -/
def afterRaise (op : Op) (late : Bool) (s : σ) : σ := if late then W.effect op s else s

def step : Coroutine Op Ans Y X α × σ → Input Op Ans X → Option (Coroutine Op Ans Y X α × σ)
  | (.call op k, s), .returns answer => some (k (.ok (answer op)), W.effect op s)
  | (.call op k, s), .raises x late =>
    if W.raisable op x then some (k (.error x), W.afterRaise op late s) else none
  | (.emit y k, s), .resume => some (k none, W.spoken y s)
  | (.emit y k, s), .throws x => some (k (some x), W.spoken y s)
  | _, _ => none

/-- The coroutine `t` run in the state `s`. -/
def machine (t : Coroutine Op Ans Y X α) (s : σ) :
    Machine (Coroutine Op Ans Y X α × σ) (Input Op Ans X) where
  init c := c = (t, s)
  step := W.step

end World

/-! ### Contracts -/

/-- What a coroutine may rely on and what it guarantees: `raises` and `throws` are the exceptions that calls and
resumptions have to be reckoned with, `guarantee` relates the states before and after each of its steps, `said`
holds where it yields, and `rely` is what happens until it is resumed. -/
structure Contract (Op Y X σ : Type) where
  raises : Op → X → Bool → σ → Prop
  throws : Y → X → σ → Prop
  guarantee : σ → σ → Prop
  said : Y → σ → Prop
  rely : Y → σ → σ → Prop

namespace Contract

variable {Op : Type} {Ans : Op → Type} {Y Z X σ α : Type}

/-- The inputs that meet a contract. -/
def Meets (K : Contract Op Y X σ) : Coroutine Op Ans Y X α × σ → Input Op Ans X → Prop
  | (.call op _, s), .raises x late => K.raises op x late s
  | (.emit y _, s), .throws x => K.throws y x s
  | _, _ => True

/-- The contract of a generator that is iterated: it differs in what is yielded, and nothing is thrown in. -/
structure Iterated (K : Contract Op Y X σ) (W : World Op Y X σ) (L : Contract Op Z X σ) (V : World Op Z X σ) :
    Prop where
  effect : V.effect = W.effect
  raisable : V.raisable = W.raisable
  raises : L.raises = K.raises
  guarantee : L.guarantee = K.guarantee

end Contract

/-- The coroutine keeps the contract from the state `s` on, and ends with `Q`. -/
def Safe {Op : Type} {Ans : Op → Type} {Y X σ α : Type} (W : World Op Y X σ) (K : Contract Op Y X σ)
    (Q : Except X α → σ → Prop) : Coroutine Op Ans Y X α → σ → Prop
  | .done a, s => Q (.ok a) s
  | .raised x, s => Q (.error x) s
  | .call op k, s =>
    (K.guarantee s (W.effect op s) ∧ ∀ a, Safe W K Q (k (.ok a)) (W.effect op s)) ∧
      ∀ x late, W.raisable op x → K.raises op x late s →
        K.guarantee s (W.afterRaise op late s) ∧ Safe W K Q (k (.error x)) (W.afterRaise op late s)
  | .emit y k, s =>
    K.said y s ∧
      ∀ t, K.rely y s t →
        Safe W K Q (k none) t ∧ ∀ x, K.throws y x s → Safe W K Q (k (some x)) t

namespace Safe

variable {Op : Type} {Ans : Op → Type} {Y Z X σ α β : Type}
variable {W : World Op Y X σ} {K : Contract Op Y X σ} {Q R : Except X α → σ → Prop}

theorem mono (hQR : ∀ r s, Q r s → R r s) {t : Coroutine Op Ans Y X α} {s : σ} (h : Safe W K Q t s) :
    Safe W K R t s := by
  induction t generalizing s with
  | done a => exact hQR _ _ h
  | raised x => exact hQR _ _ h
  | call op k ih =>
    exact ⟨⟨h.1.1, fun a ↦ ih _ (h.1.2 a)⟩, fun x late hx hK ↦
      ⟨(h.2 x late hx hK).1, ih _ (h.2 x late hx hK).2⟩⟩
  | emit y k ih =>
    exact ⟨h.1, fun t ht ↦ ⟨ih _ (h.2 t ht).1, fun x hx ↦ ih _ ((h.2 t ht).2 x hx)⟩⟩

theorem bind {t : Coroutine Op Ans Y X β} {f : β → Coroutine Op Ans Y X α} {s : σ}
    (h : Safe W K (fun r s ↦ match r with
      | .ok b => Safe W K Q (f b) s
      | .error x => Q (.error x) s) t s) : Safe W K Q (t.bind f) s := by
  induction t generalizing s with
  | done b => exact h
  | raised x => exact h
  | call op k ih =>
    exact ⟨⟨h.1.1, fun a ↦ ih _ (h.1.2 a)⟩, fun x late hx hK ↦
      ⟨(h.2 x late hx hK).1, ih _ (h.2 x late hx hK).2⟩⟩
  | emit y k ih =>
    exact ⟨h.1, fun t ht ↦ ⟨ih _ (h.2 t ht).1, fun x hx ↦ ih _ ((h.2 t ht).2 x hx)⟩⟩

theorem tryCatch {t : Coroutine Op Ans Y X α} {handle : X → Coroutine Op Ans Y X α} {s : σ}
    (h : Safe W K (fun r s ↦ match r with
      | .ok a => Q (.ok a) s
      | .error x => Safe W K Q (handle x) s) t s) : Safe W K Q (t.tryCatch handle) s := by
  induction t generalizing s with
  | done a => exact h
  | raised x => exact h
  | call op k ih =>
    exact ⟨⟨h.1.1, fun a ↦ ih _ (h.1.2 a)⟩, fun x late hx hK ↦
      ⟨(h.2 x late hx hK).1, ih _ (h.2 x late hx hK).2⟩⟩
  | emit y k ih =>
    exact ⟨h.1, fun t ht ↦ ⟨ih _ (h.2 t ht).1, fun x hx ↦ ih _ ((h.2 t ht).2 x hx)⟩⟩

theorem tryFinally {t : Coroutine Op Ans Y X α} {close : Coroutine Op Ans Y X Unit} {s : σ}
    (h : Safe W K (fun r s ↦ Safe W K (fun c s ↦ match c with
      | .ok _ => Q r s
      | .error x => Q (.error x) s) close s) t s) : Safe W K Q (t.tryFinally close) s := by
  induction t generalizing s with
  | done a => exact bind (mono (fun r s hr ↦ by cases r <;> exact hr) h)
  | raised x => exact bind (mono (fun r s hr ↦ by cases r <;> exact hr) h)
  | call op k ih =>
    exact ⟨⟨h.1.1, fun a ↦ ih _ (h.1.2 a)⟩, fun x late hx hK ↦
      ⟨(h.2 x late hx hK).1, ih _ (h.2 x late hx hK).2⟩⟩
  | emit y k ih =>
    exact ⟨h.1, fun t ht ↦ ⟨ih _ (h.2 t ht).1, fun x hx ↦ ih _ ((h.2 t ht).2 x hx)⟩⟩

theorem await {op : Op} {Q : Except X (Ans op) → σ → Prop} {s : σ}
    (hguarantee : K.guarantee s (W.effect op s)) (hok : ∀ a, Q (.ok a) (W.effect op s))
    (herror : ∀ x late, W.raisable op x → K.raises op x late s →
      K.guarantee s (W.afterRaise op late s) ∧ Q (.error x) (W.afterRaise op late s)) :
    Safe W K Q (Coroutine.await op : Coroutine Op Ans Y X (Ans op)) s :=
  ⟨⟨hguarantee, hok⟩, herror⟩

theorem when {c : Prop} [Decidable c] {t : Coroutine Op Ans Y X Unit} {Q : Except X Unit → σ → Prop} {s : σ}
    (hc : c → Safe W K Q t s) (hskip : ¬c → Q (.ok ()) s) : Safe W K Q (t.when c) s := by
  rw [Coroutine.when]
  split
  · next h => exact hc h
  · next h => exact hskip h

theorem yieldOne {y : Y} {Q : Except X Unit → σ → Prop} {s : σ} (hsaid : K.said y s)
    (hrely : ∀ t, K.rely y s t → Q (.ok ()) t ∧ ∀ x, K.throws y x s → Q (.error x) t) :
    Safe W K Q (Coroutine.yieldOne y : Coroutine Op Ans Y X Unit) s :=
  ⟨hsaid, hrely⟩

/-- A contract may promise less of where the coroutine yields, and rely on more until it is resumed. -/
theorem weaken {said : Y → σ → Prop} {rely : Y → σ → σ → Prop} (hsaid : ∀ y s, K.said y s → said y s)
    (hrely : ∀ y s t, K.said y s → rely y s t → K.rely y s t) {t : Coroutine Op Ans Y X α} {s : σ}
    (h : Safe W K Q t s) : Safe W { K with said := said, rely := rely } Q t s := by
  induction t generalizing s with
  | done a => exact h
  | raised x => exact h
  | call op k ih =>
    exact ⟨⟨h.1.1, fun a ↦ ih _ (h.1.2 a)⟩, fun x late hx hK ↦
      ⟨(h.2 x late hx hK).1, ih _ (h.2 x late hx hK).2⟩⟩
  | emit y k ih =>
    exact ⟨hsaid y s h.1, fun t ht ↦
      have hrest := h.2 t (hrely y s t h.1 ht)
      ⟨ih _ hrest.1, fun x hx ↦ ih _ (hrest.2 x hx)⟩⟩

/-- A contract may guarantee less of its steps. -/
theorem weaken_guarantee {guarantee : σ → σ → Prop} (hG : ∀ s u, K.guarantee s u → guarantee s u)
    {t : Coroutine Op Ans Y X α} {s : σ} (h : Safe W K Q t s) :
    Safe W { K with guarantee := guarantee } Q t s := by
  induction t generalizing s with
  | done a => exact h
  | raised x => exact h
  | call op k ih =>
    exact ⟨⟨hG _ _ h.1.1, fun a ↦ ih _ (h.1.2 a)⟩, fun x late hx hK ↦
      ⟨hG _ _ (h.2 x late hx hK).1, ih _ (h.2 x late hx hK).2⟩⟩
  | emit y k ih =>
    exact ⟨h.1, fun t ht ↦ ⟨ih _ (h.2 t ht).1, fun x hx ↦ ih _ ((h.2 t ht).2 x hx)⟩⟩

/-- The induction goes along the inner generator. `I` is what the body keeps of what it accumulates and of the
state, and a step of the inner generator keeps it as well. -/
theorem foldEachOver {V : World Op Z X σ} {L : Contract Op Z X σ} (hL : K.Iterated W L V)
    {body : β → Z → Coroutine Op Ans Y X β} {I : β → σ → Prop} {Q : Except X β → σ → Prop}
    {P : Except X Unit → σ → Prop} {t : Coroutine Op Ans Z X Unit} {b : β} {s : σ}
    (hkept : ∀ b s u, K.guarantee s u → I b s → I b u)
    (hbody : ∀ b z s, I b s → L.said z s → Safe W K (fun r u ↦ match r with
      | .ok c => I c u ∧ L.rely z s u
      | .error x => Q (.error x) u) (body b z) s)
    (hend : ∀ b s r, I b s → P r s → match r with
      | .ok _ => Q (.ok b) s
      | .error x => Q (.error x) s)
    (h : Safe V L P t s) (hb : I b s) : Safe W K Q (t.foldEach body b) s := by
  induction t generalizing b s with
  | done a => exact hend b s (.ok a) hb h
  | raised x => exact hend b s (.error x) hb h
  | call op k ih =>
    obtain ⟨⟨hok, hsafe⟩, hraises⟩ := h
    rw [hL.effect] at hok hsafe
    rw [hL.guarantee] at hok
    refine ⟨⟨hok, fun a ↦ ih _ (hsafe a) (hkept b _ _ hok hb)⟩, fun x late hx hK ↦ ?_⟩
    have hafter : V.afterRaise op late s = W.afterRaise op late s := by
      rw [World.afterRaise, World.afterRaise, hL.effect]
    obtain ⟨hstep, hrest⟩ := hraises x late (hL.raisable ▸ hx) (hL.raises ▸ hK)
    rw [hafter] at hstep hrest
    rw [hL.guarantee] at hstep
    exact ⟨hstep, ih _ hrest (hkept b _ _ hstep hb)⟩
  | emit z k ih =>
    obtain ⟨hsaid, hrest⟩ := h
    refine bind (mono (fun r u hr ↦ ?_) (hbody b z s hb hsaid))
    cases r with
    | ok c => exact ih none (hrest u hr.2).1 hr.1
    | error x => exact hr

/-- Where the body keeps something of what it accumulates alone. -/
theorem foldEach {V : World Op Z X σ} {L : Contract Op Z X σ} (hL : K.Iterated W L V)
    {body : β → Z → Coroutine Op Ans Y X β} {I : β → Prop} {Q : Except X β → σ → Prop}
    {P : Except X Unit → σ → Prop} {t : Coroutine Op Ans Z X Unit} {b : β} {s : σ}
    (hbody : ∀ b z s, I b → L.said z s → Safe W K (fun r u ↦ match r with
      | .ok c => I c ∧ L.rely z s u
      | .error x => Q (.error x) u) (body b z) s)
    (hend : ∀ b s r, I b → P r s → match r with
      | .ok _ => Q (.ok b) s
      | .error x => Q (.error x) s)
    (h : Safe V L P t s) (hb : I b) : Safe W K Q (t.foldEach body b) s :=
  foldEachOver hL (I := fun b _ ↦ I b) (fun _ _ _ _ hb ↦ hb) hbody hend h hb

/-- A generator that hands on the events of another: what is thrown in ends it where it is. -/
theorem delegate {V : World Op Y X σ} {L : Contract Op Y X σ} (hL : K.Iterated W L V)
    {t : Coroutine Op Ans Y X Unit} {Q : Except X Unit → σ → Prop} {s : σ}
    (hsaid : ∀ y s, L.said y s → K.said y s)
    (hrely : ∀ y s u, L.said y s → K.rely y s u → L.rely y s u ∧ ∀ x, K.throws y x s → Q (.error x) u)
    (h : Safe V L Q t s) : Safe W K Q t.delegate s := by
  refine foldEach hL (I := fun _ ↦ True) (P := Q) ?_ ?_ h trivial
  · intro _ y s _ hy
    refine yieldOne (hsaid y s hy) fun u hu ↦ ⟨⟨trivial, (hrely y s u hy hu).1⟩, (hrely y s u hy hu).2⟩
  · rintro ⟨⟩ s (x | ⟨⟩) - hr
    · exact hr
    · exact hr

end Safe

/-! ### Invariants -/

/-- The invariant `I` is kept until a coroutine ends, and what it raises satisfies `E`. -/
def KeptAtEnd {X σ α : Type} (I : σ → Prop) (E : X → Prop) : Except X α → σ → Prop
  | .ok _, s => I s
  | .error x, s => I s ∧ E x

@[inherit_doc KeptAtEnd]
def Keeps {Op : Type} {Ans : Op → Type} {Y X σ α : Type} (W : World Op Y X σ) (K : Contract Op Y X σ)
    (I : σ → Prop) (E : X → Prop) (t : Coroutine Op Ans Y X α) : Prop :=
  ∀ s, I s → Safe W K (KeptAtEnd I E) t s

namespace Keeps

variable {Op : Type} {Ans : Op → Type} {Y Z X σ α β : Type}
variable {W : World Op Y X σ} {K : Contract Op Y X σ} {I : σ → Prop} {E : X → Prop}

theorem pure (a : α) : Keeps W K I E (Pure.pure a : Coroutine Op Ans Y X α) := fun _ hs ↦ hs

theorem raise {x : X} (hx : E x) : Keeps W K I E (.raised x : Coroutine Op Ans Y X α) :=
  fun _ hs ↦ ⟨hs, hx⟩

theorem await {op : Op} (hok : ∀ s, I s → K.guarantee s (W.effect op s) ∧ I (W.effect op s))
    (herror : ∀ s x late, I s → W.raisable op x → K.raises op x late s →
      K.guarantee s (W.afterRaise op late s) ∧ I (W.afterRaise op late s) ∧ E x) :
    Keeps W K I E (Coroutine.await op : Coroutine Op Ans Y X (Ans op)) := fun s hs ↦
  Safe.await (hok s hs).1 (fun _ ↦ (hok s hs).2) fun x late hx hK ↦ herror s x late hs hx hK

theorem bind {t : Coroutine Op Ans Y X β} {f : β → Coroutine Op Ans Y X α} (ht : Keeps W K I E t)
    (hf : ∀ b, Keeps W K I E (f b)) : Keeps W K I E (t >>= f) := by
  intro s hs
  refine Safe.bind (Safe.mono ?_ (ht s hs))
  rintro (x | b) u hu
  · exact hu
  · exact hf b u hu

theorem tryCatch {t : Coroutine Op Ans Y X α} {handle : X → Coroutine Op Ans Y X α} (ht : Keeps W K I E t)
    (hhandle : ∀ x, E x → Keeps W K I E (handle x)) : Keeps W K I E (t.tryCatch handle) := by
  intro s hs
  refine Safe.tryCatch (Safe.mono ?_ (ht s hs))
  rintro (x | a) u hu
  · exact hhandle x hu.2 u hu.1
  · exact hu

theorem tryFinally {t : Coroutine Op Ans Y X α} {close : Coroutine Op Ans Y X Unit} (ht : Keeps W K I E t)
    (hclose : Keeps W K I E close) : Keeps W K I E (t.tryFinally close) := by
  intro s hs
  refine Safe.tryFinally (Safe.mono ?_ (ht s hs))
  rintro (x | a) u hu
  · refine Safe.mono ?_ (hclose u hu.1)
    rintro (y | _) v hv
    · exact hv
    · exact ⟨hv, hu.2⟩
  · refine Safe.mono ?_ (hclose u hu)
    rintro (y | _) v hv
    · exact hv
    · exact hv

theorem when {t : Coroutine Op Ans Y X Unit} (ht : Keeps W K I E t) (c : Prop) [Decidable c] :
    Keeps W K I E (t.when c) := fun s hs ↦ Safe.when (fun _ ↦ ht s hs) fun _ ↦ hs

theorem yieldOne {y : Y} (hsaid : ∀ s, I s → K.said y s) (hrely : ∀ s t, I s → K.rely y s t → I t)
    (hthrows : ∀ s x, I s → K.throws y x s → E x) :
    Keeps W K I E (Coroutine.yieldOne y : Coroutine Op Ans Y X Unit) := fun s hs ↦
  Safe.yieldOne (hsaid s hs) fun t ht ↦ ⟨hrely s t hs ht, fun x hx ↦ ⟨hrely s t hs ht, hthrows s x hs hx⟩⟩

theorem yieldAll {ys : List Y}
    (hys : ∀ y ∈ ys, Keeps W K I E (Coroutine.yieldOne y : Coroutine Op Ans Y X Unit)) :
    Keeps W K I E (Coroutine.yieldAll ys : Coroutine Op Ans Y X Unit) := by
  induction ys with
  | nil => exact pure ()
  | cons y ys ih =>
    exact bind (hys y List.mem_cons_self) fun _ ↦ ih fun z hz ↦ hys z (List.mem_cons_of_mem y hz)

/-- The loop over a generator that keeps the invariant, with a body that does. -/
theorem foldEach {V : World Op Z X σ} {L : Contract Op Z X σ} (hL : K.Iterated W L V)
    (hsaid : ∀ z s, L.said z s → I s) (hrely : ∀ z s u, I u → L.rely z s u)
    {body : β → Z → Coroutine Op Ans Y X β} {t : Coroutine Op Ans Z X Unit} (b : β)
    (hbody : ∀ b z, Keeps W K I E (body b z)) (ht : Keeps V L I E t) :
    Keeps W K I E (t.foldEach body b) := by
  intro s hs
  refine Safe.foldEach hL (I := fun _ ↦ True) ?_ ?_ (ht s hs) trivial
  · intro b z s _ hz
    refine Safe.mono ?_ (hbody b z s (hsaid z s hz))
    rintro (x | c) u hu
    · exact hu
    · exact ⟨trivial, hrely z s u hu⟩
  · rintro b s (x | _) - hr
    · exact hr
    · exact hr

end Keeps

namespace Safe

variable {Op : Type} {Ans : Op → Type} {Y X σ α : Type}
variable {W : World Op Y X σ} {K : Contract Op Y X σ} {Q : Except X α → σ → Prop}

/-- A coroutine that has ended has ended as it should. -/
theorem ended {t : Coroutine Op Ans Y X α} {s : σ} (h : Safe W K Q t s) (ht : t.Over) : ∃ r, Q r s := by
  cases t with
  | done a => exact ⟨.ok a, h⟩
  | raised x => exact ⟨.error x, h⟩
  | call op k => exact ht.elim
  | emit y k => exact ht.elim

/-! ### Runs -/

section Run

variable [∀ op x, Decidable (W.raisable op x)] {t u : Coroutine Op Ans Y X α} {s v : σ}

theorem step (hspoken : ∀ y s, K.rely y s (W.spoken y s))
    (hyield : ∀ y s, K.said y s → K.guarantee s (W.spoken y s)) {input : Input Op Ans X} (h : Safe W K Q t s) (hinput : K.Meets (t, s) input)
    (hstep : W.step (t, s) input = some (u, v)) : Safe W K Q u v ∧ K.guarantee s v := by
  cases t with
  | done a => exact nomatch hstep
  | raised x => exact nomatch hstep
  | call op k =>
    cases input with
    | returns answer =>
      obtain ⟨rfl, rfl⟩ := Prod.mk.inj (Option.some.inj hstep)
      exact ⟨h.1.2 _, h.1.1⟩
    | raises x late =>
      rw [World.step] at hstep
      split at hstep
      · next hx =>
        obtain ⟨rfl, rfl⟩ := Prod.mk.inj (Option.some.inj hstep)
        exact ⟨(h.2 x late hx hinput).2, (h.2 x late hx hinput).1⟩
      · exact nomatch hstep
    | resume => exact nomatch hstep
    | throws x => exact nomatch hstep
  | emit y k =>
    cases input with
    | returns answer => exact nomatch hstep
    | raises x late => exact nomatch hstep
    | resume =>
      obtain ⟨rfl, rfl⟩ := Prod.mk.inj (Option.some.inj hstep)
      exact ⟨(h.2 _ (hspoken y s)).1, hyield y s h.1⟩
    | throws x =>
      obtain ⟨rfl, rfl⟩ := Prod.mk.inj (Option.some.inj hstep)
      exact ⟨(h.2 _ (hspoken y s)).2 x hinput, hyield y s h.1⟩

/-- A run that meets the contract keeps the coroutine safe, and its state guaranteed. -/
theorem later {t₀ : Coroutine Op Ans Y X α} {s₀ : σ}
    (hspoken : ∀ y s, K.rely y s (W.spoken y s)) (hyield : ∀ y s, K.guarantee s (W.spoken y s))
    (hrefl : ∀ s, K.guarantee s s) (htrans : ∀ s t u, K.guarantee s t → K.guarantee t u → K.guarantee s u)
    (h : Safe W K Q t s) (hrun : (W.machine t₀ s₀).Later K.Meets (t, s) (u, v)) :
    Safe W K Q u v ∧ K.guarantee s v := by
  refine Machine.Later.invariant (M := W.machine t₀ s₀) (C := K.Meets)
    (I := fun c ↦ Safe W K Q c.1 c.2) (R := fun c d ↦ Safe W K Q d.1 d.2 ∧ K.guarantee c.2 d.2)
    (fun c hc ↦ ⟨hc, hrefl c.2⟩) ?_ ?_ hrun h
  · exact fun c input d hc hinput hstep ↦ (step hspoken (fun y s _ ↦ hyield y s) hc hinput hstep).1
  · intro c d input e hd hcd hinput hstep
    obtain ⟨hsafe, hguarantee⟩ := step hspoken (fun y s _ ↦ hyield y s) hd hinput hstep
    exact ⟨hsafe, htrans _ _ _ hcd.2 hguarantee⟩

end Run

end Safe
