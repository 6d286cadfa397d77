import GenericApp.Core.CacheLoader

/-!
# One loader at a time

A call that is past its first look-up takes the lock that its process has for the key, and keeps it until it
ends. Whatever else happens, between any two statements each call that is past the lock is the one that has
it: it is taken only while it is free, and only the call that has it lets go of it, or the process ends with
all its calls.

* `one_loader`: at most one loader runs in a process, in every run.
-/

namespace GenericApp

open Machine Py

variable {S : CacheSettings} {key : String} {ttlSeconds : ℤ}

/-! ### The lock of the process -/

/-- The call holds the lock of its process. -/
def CacheLoad.guarded : CacheLoad → Bool
  | reading _ _ .first | heard _ _ .first _ | waiting .. => false
  | _ => true

namespace CacheLoads

/-- Every call that is past the lock of its process is the one that holds it. -/
def Guarded (u : CacheLoads) : Prop :=
  ∀ i c, u.loads i = some c → c.guarded = true → u.flights c.process = some i

variable {u t : CacheLoads} {i p since value : ℕ}

namespace Guarded

theorem move (h : u.Guarded) {c : CacheLoad} (hc : c.guarded = true → u.flights c.process = some i) :
    (u.move i c).Guarded := by
  intro j d hd hguarded
  rcases update_cases (f := u.loads) (i := i) (x := some c) rfl j with ⟨rfl, heq⟩ | ⟨-, heq⟩
  · obtain rfl : c = d := Option.some.inj (heq.symm.trans hd)
    exact hc hguarded
  · exact h j d (heq.symm.trans hd) hguarded

theorem gone (h : u.Guarded) : (u.gone i).Guarded := by
  intro j d hd hguarded
  rcases update_cases (f := u.loads) (i := i) (x := none) rfl j with ⟨-, heq⟩ | ⟨-, heq⟩
  · exact nomatch heq.symm.trans hd
  · exact h j d (heq.symm.trans hd) hguarded

/-- Only the call that holds the lock leaves it, and ends. -/
theorem unlock (h : u.Guarded) (hp : u.flights p = some i) : ((u.unlock p).gone i).Guarded := by
  intro j d hd hguarded
  rcases update_cases (f := u.loads) (i := i) (x := none) rfl j with ⟨-, heq⟩ | ⟨hne, heq⟩
  · exact nomatch heq.symm.trans hd
  · have hheld : u.flights d.process = some j := h j d (heq.symm.trans hd) hguarded
    have hother : d.process ≠ p := fun hp' ↦ hne (Option.some.inj (hheld.symm.trans (hp' ▸ hp)))
    exact (Function.update_of_ne hother ..).trans hheld

/-- A call may take the lock when it is free. -/
theorem lock (h : u.Guarded) (hfree : u.flights p = none) :
    ({ u with flights := Function.update u.flights p (some i) } : CacheLoads).Guarded := by
  intro j d hd hguarded
  have hheld : u.flights d.process = some j := h j d hd hguarded
  have hother : d.process ≠ p := by
    intro hp
    rw [hp, hfree] at hheld
    exact nomatch hheld
  exact (Function.update_of_ne hother ..).trans hheld

theorem hit (h : u.Guarded) (lookUp : LookUp) (hp : lookUp ≠ .first → u.flights p = some i) :
    (u.hit i p since value lookUp).Guarded := by
  cases lookUp with
  | first => exact h.gone
  | second => exact h.unlock (hp nofun)
  | polling deadline => exact h.move fun _ ↦ hp nofun
  | last => exact h.unlock (hp nofun)

theorem miss (h : u.Guarded) (lookUp : LookUp) (hp : lookUp ≠ .first → u.flights p = some i) :
    (u.miss S key i p since lookUp).Guarded := by
  cases lookUp with
  | first => exact h.move nofun
  | second =>
    rw [CacheLoads.miss]
    split
    · exact h.move fun _ ↦ hp nofun
    · exact h.move fun _ ↦ hp nofun
  | polling deadline => exact h.move fun _ ↦ hp nofun
  | last => exact h.unlock (hp nofun)

theorem getCached (h : u.Guarded) (lookUp : LookUp) (hp : lookUp ≠ .first → u.flights p = some i) :
    (u.getCached S key i p since lookUp).Guarded := by
  have hlocals : ({ u with locals := Function.update u.locals p (readLocal (u.locals p) key u.clock).2 } :
      CacheLoads).Guarded := h
  rw [CacheLoads.getCached]
  split
  · exact hlocals.hit lookUp hp
  · split
    · refine hlocals.move fun hguarded ↦ hp fun hfirst ↦ ?_
      rw [hfirst] at hguarded
      exact nomatch hguarded
    · exact hlocals.miss lookUp hp

end Guarded

theorem guarded_reading {lookUp : LookUp} (h : lookUp ≠ .first) :
    (CacheLoad.reading p since lookUp).guarded = true := by
  cases lookUp with
  | first => exact absurd rfl h
  | second | polling | last => rfl

theorem guarded_heard {lookUp : LookUp} (reply : Option ℕ) (h : lookUp ≠ .first) :
    (CacheLoad.heard p since lookUp reply).guarded = true := by
  cases lookUp with
  | first => exact absurd rfl h
  | second | polling | last => rfl

/-- A call that has read is past the lock unless this was its first look-up. -/
theorem Guarded.of_lookUp (h : u.Guarded) {lookUp : LookUp} {c : CacheLoad} (hcall : u.loads i = some c)
    (hprocess : c.process = p) (hc : lookUp ≠ .first → c.guarded = true) :
    lookUp ≠ .first → u.flights p = some i :=
  fun hne ↦ hprocess ▸ h i c hcall (hc hne)

/-- **Each statement keeps the lock with the call that is past it.** -/
theorem guarded_step {a : CacheLoadAction} (h : u.Guarded) (hstep : u.step S key ttlSeconds a = some t) :
    t.Guarded := by
  cases a with
  | tick now =>
    rw [step] at hstep
    split at hstep
    · obtain rfl := Option.some.inj hstep
      exact h
    · exact nomatch hstep
  | start i p =>
    rw [step] at hstep
    split at hstep
    · exact nomatch hstep
    · obtain rfl := Option.some.inj hstep
      exact h.getCached .first fun hne ↦ absurd rfl hne
  | answerGet i reply =>
    rw [step] at hstep
    split at hstep
    · next p since lookUp hcall =>
      obtain rfl := Option.some.inj hstep
      refine h.move fun hguarded ↦ ?_
      have hheld : lookUp ≠ .first → u.flights p = some i := h.of_lookUp hcall rfl guarded_reading
      refine hheld fun hfirst ↦ ?_
      rw [hfirst] at hguarded
      exact nomatch hguarded
    · exact nomatch hstep
  | resume i =>
    rw [step] at hstep
    split at hstep
    · next p since lookUp value hcall =>
      obtain rfl := Option.some.inj hstep
      have hheld : lookUp ≠ .first → u.flights p = some i := h.of_lookUp hcall rfl (guarded_heard _)
      have hcopied (L : LocalTTLCache ℕ) :
          ({ u with locals := Function.update u.locals p L } : CacheLoads).Guarded := h
      exact (hcopied _).hit lookUp hheld
    · next p since lookUp hcall =>
      obtain rfl := Option.some.inj hstep
      exact h.miss lookUp (h.of_lookUp hcall rfl (guarded_heard _))
    · exact nomatch hstep
  | acquire i =>
    rw [step] at hstep
    split at hstep
    · next p since hcall =>
      split at hstep
      · exact nomatch hstep
      · next hfree =>
        obtain rfl := Option.some.inj hstep
        exact (h.lock hfree).getCached .second fun _ ↦ Function.update_self ..
    · exact nomatch hstep
  | poll i =>
    rw [step] at hstep
    split at hstep
    · next p since deadline hcall =>
      have hheld : u.flights p = some i := h i _ hcall rfl
      split at hstep
      · obtain rfl := Option.some.inj hstep
        exact h.getCached _ fun _ ↦ hheld
      · obtain rfl := Option.some.inj hstep
        exact h.move fun _ ↦ hheld
    · exact nomatch hstep
  | tryLock i token reply =>
    rw [step] at hstep
    split at hstep
    · next p since deadline hcall =>
      have hheld : u.flights p = some i := h i _ hcall rfl
      cases reply with
      | answered =>
        dsimp only at hstep
        split at hstep
        · obtain rfl := Option.some.inj hstep
          exact h.move fun _ ↦ hheld
        · obtain rfl := Option.some.inj hstep
          exact Guarded.move (u := { u with locks := _ }) h fun _ ↦ hheld
      | lost =>
        obtain rfl := Option.some.inj hstep
        exact Guarded.move (u := { u with locks := _ }) h fun _ ↦ hheld
      | refused =>
        obtain rfl := Option.some.inj hstep
        exact h.move fun _ ↦ hheld
    · exact nomatch hstep
  | readFilled i =>
    rw [step] at hstep
    split at hstep
    · next p since hcall =>
      obtain rfl := Option.some.inj hstep
      exact h.getCached .last fun _ ↦ h i _ hcall rfl
    · exact nomatch hstep
  | load i | fail i =>
    rw [step] at hstep
    split at hstep
    · next p since token hcall =>
      obtain rfl := Option.some.inj hstep
      have hheld : u.flights p = some i := h i _ hcall rfl
      exact h.move fun _ ↦ hheld
    · exact nomatch hstep
  | storeLocal i =>
    rw [step] at hstep
    split at hstep
    · next p since token value hcall =>
      obtain rfl := Option.some.inj hstep
      refine Guarded.move (u := { u with locals := _ }) h fun _ ↦ ?_
      have hheld : u.flights p = some i := h i _ hcall rfl
      split
      · exact hheld
      · exact hheld
    · exact nomatch hstep
  | share i reply =>
    rw [step] at hstep
    split at hstep
    · next p since token value hcall =>
      obtain rfl := Option.some.inj hstep
      have hheld : u.flights p = some i := h i _ hcall rfl
      exact Guarded.move (u := { u with redis := _ }) h fun _ ↦ hheld
    · exact nomatch hstep
  | release i reply =>
    rw [step] at hstep
    split at hstep
    · next p since token value hcall =>
      have hheld : u.flights p = some i := h i _ hcall rfl
      split at hstep
      · obtain rfl := Option.some.inj hstep
        exact Guarded.unlock (u := { u with locks := _ }) h hheld
      · obtain rfl := Option.some.inj hstep
        exact Guarded.unlock (u := { u with locks := _ }) h hheld
    · exact nomatch hstep
  | commit w p =>
    rw [step] at hstep
    split at hstep
    · exact nomatch hstep
    · obtain rfl := Option.some.inj hstep
      exact h
  | deleteLocal w =>
    rw [step] at hstep
    split at hstep
    · dsimp only at hstep
      split at hstep
      · obtain rfl := Option.some.inj hstep
        exact h
      · obtain rfl := Option.some.inj hstep
        exact h
    · exact nomatch hstep
  | deleteShared w reply =>
    rw [step] at hstep
    split at hstep
    · dsimp only at hstep
      split at hstep
      · obtain rfl := Option.some.inj hstep
        exact h
      · obtain rfl := Option.some.inj hstep
        exact h
    · exact nomatch hstep
  | evict p =>
    obtain rfl := Option.some.inj hstep
    exact h
  | restart p =>
    obtain rfl := Option.some.inj hstep
    intro j d hd hguarded
    obtain ⟨hcall, hother⟩ := Option.filter_eq_some_iff.1 hd
    exact (Function.update_of_ne (of_decide_eq_true hother) ..).trans (h j d hcall hguarded)
  | forget =>
    obtain rfl := Option.some.inj hstep
    exact h

end CacheLoads

variable (S key ttlSeconds) in
/-- **In every run, at most one loader for the key runs in a process.** -/
theorem one_loader {u : CacheLoads} (h : (cacheLoadMachine S key ttlSeconds).Reachable anyStep u)
    {i j p since since' : ℕ} {token token' : Option ℕ} (hi : u.loads i = some (.loading p since token))
    (hj : u.loads j = some (.loading p since' token')) : i = j := by
  have hguarded : u.Guarded :=
    h.invariant (fun u hu i c hc ↦ nomatch (hu.2.2.2.2.2.1 i).symm.trans hc)
      fun _ _ _ hu _ hstep ↦ CacheLoads.guarded_step hu hstep
  have hfirst : u.flights p = some i := hguarded i _ hi rfl
  have hsecond : u.flights p = some j := hguarded j _ hj rfl
  exact Option.some.inj (hfirst.symm.trans hsecond)

end GenericApp
