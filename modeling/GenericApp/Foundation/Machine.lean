import Mathlib.Data.Nat.Notation
import Mathlib.Logic.Function.Basic
import Mathlib.Logic.Relation

/-!
# Machines and runs whose steps meet a condition

The interleaving substrate of this development. A machine is a set of initial states and a
**partial step function**: `step s a` is `some t` when the action `a` is enabled in `s` and leads
to `t`, and `none` otherwise. An action names the party that moves and carries the data the
environment chooses (a clock reading, a fresh identifier, the outcome of an external call), so
that a list of actions is a schedule and replaying a schedule is evaluation.

Every notion of reachability takes a **condition** on steps, `C : σ → α → Prop`, and only speaks
about runs all of whose steps meet it. `Machine.anyStep` is the condition that excludes nothing.
Stating the condition on the step, and not on the run, is what lets a result of the form "as long
as no step does such a thing, this holds in every state" be proved by one induction, once, here:

* `Reachable.invariant` is the induction for a property of states;
* `Later.stable` is the induction for a property that, once true, stays true;
* `Later.invariant` relates the two ends of a run by a reflexive relation that every step extends.

Nothing here knows what the states are.
-/

universe u v

/-- A machine: which states are initial, and what an action does in a state, if it is enabled. -/
structure Machine (σ : Type u) (α : Type v) where
  /-- The initial states. -/
  init : σ → Prop
  /-- The effect of an action, `none` where it is not enabled. -/
  step : σ → α → Option σ

namespace Machine

variable {σ : Type u} {α : Type v} (M : Machine σ α)

/-- The condition that admits every step. -/
def anyStep : σ → α → Prop := fun _ _ ↦ True

/-- One step whose action meets `C` in the state it is taken from. -/
def StepUnder (C : σ → α → Prop) (s t : σ) : Prop := ∃ a, C s a ∧ M.step s a = some t

/-- `t` is reached from `s` by steps that all meet `C`. -/
def Later (C : σ → α → Prop) : σ → σ → Prop := Relation.ReflTransGen (M.StepUnder C)

/-- `t` is reached from an initial state by steps that all meet `C`. -/
def Reachable (C : σ → α → Prop) (t : σ) : Prop := ∃ s, M.init s ∧ M.Later C s t

instance (s : σ) (a : α) : Decidable (anyStep s a) := inferInstanceAs (Decidable True)

/-- Replay a schedule. Undefined as soon as one of its actions is not enabled, or does not meet the
condition. -/
def run (C : σ → α → Prop) [∀ s a, Decidable (C s a)] : σ → List α → Option σ
  | s, [] => some s
  | s, a :: as => if C s a then (M.step s a).bind fun t ↦ run C t as else none

variable {M} {C D : σ → α → Prop} {s t u : σ}

/-! ### Building runs -/

theorem Later.refl (s : σ) : M.Later C s s := Relation.ReflTransGen.refl

theorem Later.tail {a : α} (h : M.Later C s t) (hC : C t a) (hstep : M.step t a = some u) :
    M.Later C s u :=
  Relation.ReflTransGen.tail h ⟨a, hC, hstep⟩

theorem Later.single {a : α} (hC : C s a) (hstep : M.step s a = some t) : M.Later C s t :=
  (Later.refl s).tail hC hstep

theorem Later.trans (h₁ : M.Later C s t) (h₂ : M.Later C t u) : M.Later C s u :=
  Relation.ReflTransGen.trans h₁ h₂

theorem Reachable.of_init (h : M.init s) : M.Reachable C s := ⟨s, h, Later.refl s⟩

theorem Reachable.later (h : M.Reachable C s) (hl : M.Later C s t) : M.Reachable C t := by
  obtain ⟨s₀, h₀, hs⟩ := h
  exact ⟨s₀, h₀, hs.trans hl⟩

theorem Reachable.tail {a : α} (h : M.Reachable C s) (hC : C s a) (hstep : M.step s a = some t) :
    M.Reachable C t :=
  h.later (Later.single hC hstep)

/-- A run under a condition is a run under every weaker one. -/
theorem Later.mono (hCD : ∀ s a, C s a → D s a) (h : M.Later C s t) : M.Later D s t :=
  Relation.ReflTransGen.mono (fun _ _ ⟨a, hC, hstep⟩ ↦ ⟨a, hCD _ _ hC, hstep⟩) _ _ h

theorem Reachable.mono (hCD : ∀ s a, C s a → D s a) (h : M.Reachable C s) : M.Reachable D s := by
  obtain ⟨s₀, h₀, hs⟩ := h
  exact ⟨s₀, h₀, hs.mono hCD⟩

/-- A replayed schedule is a run. -/
theorem later_of_run [∀ s a, Decidable (C s a)] :
    ∀ {as : List α} {s t : σ}, M.run C s as = some t → M.Later C s t
  | [], s, t, h => by
    obtain rfl : s = t := Option.some.inj h
    exact Later.refl s
  | a :: as, s, t, h => by
    rw [run] at h
    split at h
    · next hC =>
      obtain ⟨r, hr, ht⟩ := Option.bind_eq_some_iff.1 h
      exact (Later.single hC hr).trans (later_of_run ht)
    · cases h

/-- The state a schedule ends in, when it can be replayed. -/
theorem later_run [∀ s a, Decidable (C s a)] {as : List α} (h : (M.run C s as).isSome = true) :
    M.Later C s ((M.run C s as).get h) :=
  later_of_run (Option.some_get h).symm

theorem reachable_run [∀ s a, Decidable (C s a)] {as : List α} (h₀ : M.init s)
    (h : (M.run C s as).isSome = true) : M.Reachable C ((M.run C s as).get h) :=
  ⟨s, h₀, later_run h⟩

/-! ### Induction along runs -/

/-- A property of the initial states that every admitted step preserves holds of every state a
run reaches. -/
theorem Reachable.invariant {I : σ → Prop} (hinit : ∀ s, M.init s → I s)
    (hstep : ∀ s a t, I s → C s a → M.step s a = some t → I t) (h : M.Reachable C s) : I s := by
  obtain ⟨s₀, h₀, hs⟩ := h
  induction hs with
  | refl => exact hinit _ h₀
  | tail _ hst ih =>
    obtain ⟨a, hC, hst⟩ := hst
    exact hstep _ a _ ih hC hst

/-- A property that every admitted step preserves, once true, stays true. -/
theorem Later.stable {P : σ → Prop}
    (hstep : ∀ s a t, P s → C s a → M.step s a = some t → P t) (h : M.Later C s t) (hs : P s) :
    P t := by
  induction h with
  | refl => exact hs
  | tail _ hst ih =>
    obtain ⟨a, hC, hst⟩ := hst
    exact hstep _ a _ ih hC hst

/-- A relation between the start of a run and its later states: reflexive, and extended by every
admitted step out of a state that satisfies the invariant `I`. -/
theorem Later.invariant {I : σ → Prop} {R : σ → σ → Prop} (hrefl : ∀ s, I s → R s s)
    (hinv : ∀ s a t, I s → C s a → M.step s a = some t → I t)
    (hstep : ∀ s t a u, I t → R s t → C t a → M.step t a = some u → R s u)
    (h : M.Later C s t) (hs : I s) : R s t := by
  suffices H : I t ∧ R s t from H.2
  induction h with
  | refl => exact ⟨hs, hrefl _ hs⟩
  | tail _ hst ih =>
    obtain ⟨a, hC, hst⟩ := hst
    exact ⟨hinv _ a _ ih.1 hC hst, hstep _ _ a _ ih.1 ih.2 hC hst⟩

/-! ### Many parties -/

/-- Where one party of many has moved, each is where it was or where that one has moved to. -/
theorem update_cases {ι : Type u} {κ : Type v} [DecidableEq ι] {f g : ι → κ} {i : ι} {x : κ}
    (h : g = Function.update f i x) (j : ι) : (j = i ∧ g j = x) ∨ (j ≠ i ∧ g j = f j) := by
  rw [h]
  rcases eq_or_ne j i with rfl | hne
  · exact .inl ⟨rfl, Function.update_self ..⟩
  · exact .inr ⟨hne, Function.update_of_ne hne ..⟩

section Slots

variable {κ : Type u} {l : List κ} {i j : ℕ} {x y : κ}

/-- The same for parties in a list. -/
theorem slot_of_set (h : (l.set i x)[j]? = some y) : (j = i ∧ y = x) ∨ (j ≠ i ∧ l[j]? = some y) := by
  rcases eq_or_ne j i with rfl | hne
  · rw [List.getElem?_set_self'] at h
    obtain ⟨z, -, hz⟩ := Option.map_eq_some_iff.1 h
    exact .inl ⟨rfl, hz.symm⟩
  · exact .inr ⟨hne, by rwa [List.getElem?_set_ne hne.symm] at h⟩

/-- Where a party has joined, each is where it was or is that one. -/
theorem slot_of_append (h : (l ++ [x])[j]? = some y) :
    (j = l.length ∧ y = x) ∨ (j ≠ l.length ∧ l[j]? = some y) := by
  rcases Nat.lt_trichotomy j l.length with hlt | heq | hgt
  · rw [List.getElem?_append_left hlt] at h
    exact .inr ⟨Nat.ne_of_lt hlt, h⟩
  · subst heq
    rw [List.getElem?_concat_length] at h
    exact .inl ⟨rfl, (Option.some.inj h).symm⟩
  · rw [List.getElem?_eq_none (by rw [List.length_append, List.length_singleton]; omega)] at h
    exact nomatch h

end Slots

end Machine
