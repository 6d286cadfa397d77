import Mathlib.Data.List.Basic

/-!
# Queues that acknowledge late

A message is published, taken by a worker, worked on in stages, and acknowledged when the worker is
done with it. It stays in the queue until then, so that a worker that dies gives it back. A queue may
also hand a message out once more while it is still there: delivery is at least once.

`Queue β κ` lists the deliveries of messages `β` in the order in which they were published, with the
stage `κ` that the worker has reached. Only what a queue does by itself is here. What a worker does in
a stage is up to the program, which says so by `put`; two lemmas say what holds of the queue after:
`forall_mem_put` for what every delivery satisfies, `exists_mem_put` for what some delivery satisfies.
The second is the one that a guarantee of the form "somebody is still going to do this" needs.
-/

universe u v

/-- Where a delivery stands. -/
inductive Delivery (β : Type u) (κ : Type v)
  /-- In the queue. -/
  | waiting (body : β)
  /-- With a worker, which has reached this stage. -/
  | held (body : β) (stage : κ)
  | acknowledged
  deriving DecidableEq

/-- The deliveries of a queue, oldest first. -/
abbrev Queue (β : Type u) (κ : Type v) := List (Delivery β κ)

namespace Queue

variable {β : Type u} {κ : Type v} {q r : Queue β κ} {m : ℕ} {d e : Delivery β κ}
  {P : Delivery β κ → Prop}

/-- Publish a message. -/
def post (q : Queue β κ) (body : β) : Queue β κ := q ++ [.waiting body]

/-- Delivery `m` moves on. -/
def put (q : Queue β κ) (m : ℕ) (d : Delivery β κ) : Queue β κ := q.set m d

/-- A worker takes a delivery. -/
def receive (q : Queue β κ) (m : ℕ) (first : κ) : Option (Queue β κ) :=
  match q[m]? with
  | some (.waiting body) => some (q.put m (.held body first))
  | _ => none

/-- The worker of a delivery dies, and the message is in the queue again. -/
def lose (q : Queue β κ) (m : ℕ) : Option (Queue β κ) :=
  match q[m]? with
  | some (.held body _) => some (q.put m (.waiting body))
  | _ => none

/-- A message that has not been acknowledged is delivered once more. -/
def redeliver (q : Queue β κ) (m : ℕ) : Option (Queue β κ) :=
  match q[m]? with
  | some (.waiting body) | some (.held body _) => some (q.post body)
  | _ => none

theorem mem_of_getElem? (h : q[m]? = some d) : d ∈ q := List.mem_of_getElem? h

/-! ### What every delivery satisfies -/

theorem forall_mem_put (h : ∀ e ∈ q, P e) (hd : P d) : ∀ e ∈ q.put m d, P e := by
  intro e he
  rcases List.mem_or_eq_of_mem_set he with he | rfl
  · exact h e he
  · exact hd

theorem forall_mem_post {body : β} (h : ∀ e ∈ q, P e) (hbody : P (.waiting body)) :
    ∀ e ∈ q.post body, P e := by
  intro e he
  rcases List.mem_append.1 he with he | he
  · exact h e he
  · obtain rfl := List.mem_singleton.1 he
    exact hbody

/-! ### What some delivery satisfies -/

/-- The delivery that moves on, after it has. -/
theorem mem_put_self (h : q[m]? = some e) : d ∈ q.put m d :=
  List.mem_set (List.getElem?_eq_some_iff.1 h).1 d

/-- The others are still there. -/
theorem mem_put_of_ne {f : Delivery β κ} (h : q[m]? = some e) (hf : f ∈ q) (hne : f ≠ e) :
    f ∈ q.put m d := by
  obtain ⟨k, hk⟩ := List.mem_iff_getElem?.1 hf
  have hkm : m ≠ k := fun hmk ↦ by
    rw [← hmk, h] at hk
    exact hne (Option.some.inj hk).symm
  rw [List.mem_iff_getElem?]
  exact ⟨k, (List.getElem?_set_ne hkm).trans hk⟩

/-- Some delivery satisfies `P` after a move, if one did before and the one that moves keeps it. -/
theorem exists_mem_put (h : q[m]? = some e) (hsome : ∃ f ∈ q, P f) (hkeep : P e → P d) :
    ∃ f ∈ q.put m d, P f := by
  obtain ⟨f, hf, hPf⟩ := hsome
  by_cases hne : f = e
  · exact ⟨d, mem_put_self h, hkeep (hne ▸ hPf)⟩
  · exact ⟨f, mem_put_of_ne h hf hne, hPf⟩

theorem mem_post_self (q : Queue β κ) (body : β) : .waiting body ∈ q.post body :=
  List.mem_append_right _ (List.mem_singleton_self _)

/-! ### What the queue does by itself -/

theorem receive_eq_some {first : κ} (h : q.receive m first = some r) :
    ∃ body, q[m]? = some (.waiting body) ∧ r = q.put m (.held body first) := by
  rw [receive] at h
  split at h
  · next body hm => exact ⟨body, hm, (Option.some.inj h).symm⟩
  · cases h

theorem lose_eq_some (h : q.lose m = some r) :
    ∃ body stage, q[m]? = some (.held body stage) ∧ r = q.put m (.waiting body) := by
  rw [lose] at h
  split at h
  · next body stage hm => exact ⟨body, stage, hm, (Option.some.inj h).symm⟩
  · cases h

theorem redeliver_eq_some (h : q.redeliver m = some r) :
    ∃ body, (q[m]? = some (.waiting body) ∨ ∃ stage, q[m]? = some (.held body stage)) ∧
      r = q.post body := by
  rw [redeliver] at h
  split at h
  · next body hm => exact ⟨body, .inl hm, (Option.some.inj h).symm⟩
  · next body stage hm => exact ⟨body, .inr ⟨stage, hm⟩, (Option.some.inj h).symm⟩
  · cases h

end Queue
