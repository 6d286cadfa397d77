import Mathlib.Data.Int.Notation
import Mathlib.Order.Basic

/-!
# Leases

The purpose of a time-limited claim, apart from any program that implements one. Somebody asks for
exclusive use of a thing and is granted it at some time; from then on nobody else may be granted it
until the owner is done or the lease has run out. Whoever is granted the thing after that **supersedes**
the owner before, who may not know it and may still be at work.

A `Lease` is what can be observed of such a thing: who was granted it last, which grants have not
been ended by their owner, and at which times the next request would be granted. `Lease.Step` lists
the moves that keep the promise. The move that matters is `finish`: an owner that has been superseded
may not make the thing grantable again, since it is no longer its own.

`Lease.Inv` is what the moves preserve, and `Lease.Inv.exclusive` is the promise.
-/

universe u v

/-- What can be observed of something that is granted for a limited time. -/
structure Lease (ω : Type u) (τ : Type v) where
  /-- The times at which the next request would be granted. -/
  grantable : τ → Prop
  /-- Whoever was granted the last claim. -/
  owner : Option ω
  /-- When the claims were granted that their owners have not ended. -/
  since : ω → Option τ
  /-- The time of the last move. -/
  clock : τ

namespace Lease

variable {ω : Type u} {τ : Type v} [DecidableEq ω] [Preorder τ] [Add τ] {L : τ} {s t : Lease ω τ}

/-- The moves that keep the promise of a lease of length `L`. -/
inductive Step (L : τ) (s t : Lease ω τ) : Prop
  /-- A request is granted. -/
  | grant (w : ω) (now : τ) (hclock : s.clock ≤ now) (hgrant : s.grantable now)
    (hnext : ∀ now', t.grantable now' → now + L ≤ now') (howner : t.owner = some w)
    (hsince : t.since = Function.update s.since w (some now)) (hclock' : t.clock = now)
  /-- An owner ends its claim. -/
  | finish (w : ω) (hguard : s.owner ≠ some w → ∀ now, t.grantable now → s.grantable now)
    (howner : t.owner = s.owner) (hsince : t.since = Function.update s.since w none)
    (hclock : s.clock ≤ t.clock)
  /-- Anything else. -/
  | keep (hguard : ∀ now, t.grantable now → s.grantable now) (howner : t.owner = s.owner)
    (hsince : t.since = s.since) (hclock : s.clock ≤ t.clock)

/-- What holds of the claims that have not been ended. -/
structure Inv (L : τ) (s : Lease ω τ) : Prop where
  /-- The current one keeps everybody else away until it has run out. -/
  current : ∀ w g, s.since w = some g → s.owner = some w → ∀ now, s.grantable now → g + L ≤ now
  /-- A superseded one has run out. -/
  superseded : ∀ w g, s.since w = some g → s.owner ≠ some w → g + L ≤ s.clock

/-- **The promise.** Whenever a request may be granted, every claim that has not been ended has run
out. -/
theorem Inv.exclusive (hinv : Inv L s) {now : τ} (hclock : s.clock ≤ now) (hgrant : s.grantable now)
    {w : ω} {g : τ} (hw : s.since w = some g) : g + L ≤ now := by
  by_cases howner : s.owner = some w
  · exact hinv.current w g hw howner now hgrant
  · exact (hinv.superseded w g hw howner).trans hclock

theorem Inv.step (hinv : Inv L s) (h : Step L s t) : Inv L t := by
  cases h with
  | grant w now hclock hgrant hnext howner hsince hclock' =>
    refine ⟨fun v g hv hov now' hg' ↦ ?_, fun v g hv hov ↦ ?_⟩
    · obtain rfl : w = v := Option.some.inj (howner.symm.trans hov)
      rw [hsince, Function.update_self] at hv
      obtain rfl : now = g := Option.some.inj hv
      exact hnext now' hg'
    · have hne : v ≠ w := fun h ↦ hov (by rw [howner, h])
      rw [hsince, Function.update_of_ne hne] at hv
      rw [hclock']
      exact hinv.exclusive hclock hgrant hv
  | finish w hguard howner hsince hclock =>
    have hkept : ∀ v g, t.since v = some g → v ≠ w ∧ s.since v = some g := fun v g hv ↦ by
      rw [hsince] at hv
      rcases eq_or_ne v w with rfl | hne
      · rw [Function.update_self] at hv
        cases hv
      · rw [Function.update_of_ne hne] at hv
        exact ⟨hne, hv⟩
    refine ⟨fun v g hv hov now hg ↦ ?_, fun v g hv hov ↦ ?_⟩
    · obtain ⟨hne, hv⟩ := hkept v g hv
      rw [howner] at hov
      refine hinv.current v g hv hov now (hguard (fun how ↦ ?_) now hg)
      exact hne (Option.some.inj (hov.symm.trans how))
    · rw [howner] at hov
      exact (hinv.superseded v g (hkept v g hv).2 hov).trans hclock
  | keep hguard howner hsince hclock =>
    refine ⟨fun v g hv hov now hg ↦ ?_, fun v g hv hov ↦ ?_⟩
    · rw [hsince] at hv
      rw [howner] at hov
      exact hinv.current v g hv hov now (hguard now hg)
    · rw [hsince] at hv
      rw [howner] at hov
      exact (hinv.superseded v g hv hov).trans hclock

/-- The promise, for the move that grants a claim: every other claim that has not been ended has run
out by then. -/
theorem Inv.exclusive_of_step (hinv : Inv L s) (h : Step L s t) {w : ω} {now : τ}
    (hbefore : s.since w = none) (hafter : t.since w = some now) {v : ω} {g : τ}
    (hv : s.since v = some g) : g + L ≤ now := by
  cases h with
  | grant w' now' hclock hgrant hnext howner hsince hclock' =>
    have hw : w = w' := by
      by_contra hne
      rw [hsince, Function.update_of_ne hne, hbefore] at hafter
      cases hafter
    rw [hsince, hw, Function.update_self] at hafter
    obtain rfl : now' = now := Option.some.inj hafter
    exact hinv.exclusive hclock hgrant hv
  | finish w' hguard howner hsince hclock =>
    rw [hsince, Function.update_apply, hbefore, ite_self] at hafter
    cases hafter
  | keep hguard howner hsince hclock =>
    rw [hsince, hbefore] at hafter
    cases hafter

end Lease
