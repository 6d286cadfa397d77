import GenericApp.Foundation.Lease
import GenericApp.Workers.EffectLedger
import Mathlib.Data.Int.ConditionallyCompleteOrder
import Mathlib.Order.ConditionallyCompleteLattice.Basic

/-!
# Owning an effect

One effect, its row, and any number of owners: each calls `begin_external_effect` once and, if it was
told to execute, `complete_external_effect` at most once. Clock readings do not decrease.

An effect in flight can be claimed again once `started_at` is `EXTERNAL_EFFECT_LEASE_SECONDS` old, so
an owner holds a lease, and `EffectRun.lease` reads a state as one. `complete_external_effect` finds
the row by operation and effect type and writes it unless it has succeeded, whoever is its owner by
then. So an owner that has been superseded ends the claim of its successor.

* `ownership_refines`: as long as no superseded owner completes an effect in flight, every step is a
  move of the lease.
* `effects_are_owned`: then a claim is granted only past the lease of every other owner, and a late
  completion ends nobody's claim.
* `effects_are_not_owned`: without that condition both fail.
-/

namespace GenericApp

open Machine Py

/-- Where an owner stands. -/
inductive OwnerPhase
  /-- Has not called `begin_external_effect`. -/
  | idle
  /-- Was told to execute at `since`, and has not completed. -/
  | owns (since : DateTime)
  /-- Was not told to execute, or has completed. -/
  | done
  deriving DecidableEq

/-- When the claim was granted that the owner has not completed. -/
def OwnerPhase.since : OwnerPhase → Option DateTime
  | owns since => some since
  | idle | done => none

/-- The row of one effect and its owners. `latest` is not part of the program: it is the owner whose
claim was granted last. -/
structure EffectRun where
  row : Option ExternalEffect
  phase : ℕ → OwnerPhase
  latest : Option ℕ
  clock : DateTime

/-- A call, with the owner that makes it and the clock reading it takes. -/
inductive EffectRunAction
  | begin (w : ℕ) (id : Uuid) (args : BeginArgs) (now : DateTime)
  | complete (w : ℕ) (status : EffectStatus) (error : Option String) (now : DateTime)

namespace EffectRun

/-- No row, and no owners. -/
def initial : EffectRun where
  row := none
  phase _ := .idle
  latest := none
  clock := 0

def setPhase (s : EffectRun) (w : ℕ) (p : OwnerPhase) (now : DateTime) : EffectRun :=
  { s with phase := Function.update s.phase w p, clock := now }

/-- `begin_external_effect` on the row that exists. -/
def beginRow (S : Settings) (hexdigest : String → String) (s : EffectRun) (w : ℕ) (args : BeginArgs)
    (now : DateTime) (e : ExternalEffect) : EffectRun :=
  match beginExisting S (effectKey hexdigest args) args now e with
  | .raises _ | .skips _ => s.setPhase w .done now
  | .claims e' _ => { s.setPhase w (.owns now) now with row := some e', latest := some w }

end EffectRun

/-- One call of an owner of the effect `type` of the operation `op`. -/
def effectRunStep (S : Settings) (hexdigest : String → String) (op type : String) (s : EffectRun) :
    EffectRunAction → Option EffectRun
  | .begin w id args now =>
    if s.clock ≤ now ∧ args.operationId = op ∧ args.effectType = type ∧ s.phase w = .idle then
      match s.row with
      | none => some { s.setPhase w (.owns now) now with
          row := some (beginNew id (effectKey hexdigest args) args now)
          latest := some w }
      | some e => some (s.beginRow S hexdigest w args now e)
    else none
  | .complete w status error now =>
    if s.clock ≤ now ∧ (s.phase w).since.isSome = true ∧ status ≠ .inFlight then
      some { s.setPhase w .done now with
        row := s.row.map fun e ↦ (completeExisting status error now e).getD e }
    else none

/-- The owners of one effect, from before its row exists. -/
def effectRunMachine (S : Settings) (hexdigest : String → String) (op type : String) :
    Machine EffectRun EffectRunAction where
  init s := s = .initial
  step := effectRunStep S hexdigest op type

/-! ### The row as a lease -/

/-- `EXTERNAL_EFFECT_LEASE_SECONDS`. -/
def effectLease (S : Settings) : ℤ := timedelta S.externalEffectLeaseSeconds

/-- The lease does not stand in the way of a claim at this time. -/
def effectGrantable (S : Settings) (row : Option ExternalEffect) (now : DateTime) : Prop :=
  ∀ e, row = some e →
    e.status ≠ .succeeded ∧ (e.status = .inFlight → isStaleEffect S e now = true)

/-- What a state says about the lease on its row. -/
def EffectRun.lease (S : Settings) (s : EffectRun) : Lease ℕ DateTime where
  grantable := effectGrantable S s.row
  owner := s.latest
  since w := (s.phase w).since
  clock := s.clock

/-- The claim of `w` has been superseded by a later one, and `w` has not completed. -/
def EffectRun.superseded (s : EffectRun) (w : ℕ) : Bool :=
  (s.phase w).since.isSome && decide (s.latest ≠ some w)

/-- A superseded owner is about to complete an effect in flight. -/
def EffectRun.lateComplete (s : EffectRun) (w : ℕ) : Bool :=
  s.superseded w && s.row.any fun e ↦ e.status = .inFlight

/-- No superseded owner completes an effect in flight. -/
def NoLateComplete (s : EffectRun) : EffectRunAction → Prop
  | .complete w _ _ _ => s.lateComplete w = false
  | .begin .. => True

instance (s : EffectRun) (a : EffectRunAction) : Decidable (NoLateComplete s a) :=
  match a with
  | .complete w _ _ _ => inferInstanceAs (Decidable (s.lateComplete w = false))
  | .begin .. => isTrue trivial

section Refinement

variable {S : Settings} {hexdigest : String → String} {op type : String} {s t : EffectRun}
  {a : EffectRunAction}

theorem owner_since_setPhase (s : EffectRun) (w : ℕ) (p : OwnerPhase) (now : DateTime) :
    (fun v ↦ ((s.setPhase w p now).phase v).since) =
      Function.update (fun v ↦ (s.phase v).since) w p.since :=
  funext fun v ↦ by
    rcases eq_or_ne v w with rfl | hne
    · simp [EffectRun.setPhase]
    · simp [EffectRun.setPhase, Function.update_of_ne hne]

/-- An effect in flight is left to its owner until the lease has run out. -/
theorem lease_of_effectGrantable {e : ExternalEffect} {now now' : DateTime}
    (hstatus : e.status = .inFlight) (hstarted : e.startedAt = now)
    (h : effectGrantable S (some e) now') : now + effectLease S ≤ now' := by
  have hstale := (h e rfl).2 hstatus
  rw [isStaleEffect, hstarted, decide_eq_true_iff] at hstale
  exact Int.add_le_of_le_sub_right hstale

/-- A completion leaves an effect that was not in flight no easier to claim. -/
theorem effectGrantable_of_complete {status : EffectStatus} {error : Option String}
    {now now' : DateTime} {row : Option ExternalEffect}
    (hrow : (row.any fun e ↦ e.status = .inFlight) = false)
    (h : effectGrantable S (row.map fun e ↦ (completeExisting status error now e).getD e) now') :
    effectGrantable S row now' := by
  rintro e rfl
  have hin : e.status ≠ .inFlight := by simpa using hrow
  refine ⟨fun hsucc ↦ ?_, fun h ↦ absurd h hin⟩
  have hsame : (completeExisting status error now e).getD e = e := by
    rw [completeExisting, if_pos hsucc, Option.getD_none]
  exact (h e (congrArg some hsame)).1 hsucc

/-- **As long as no superseded owner completes an effect in flight, the owners keep to the lease.** -/
theorem ownership_refines (hC : NoLateComplete s a)
    (h : effectRunStep S hexdigest op type s a = some t) :
    Lease.Step (effectLease S) (s.lease S) (t.lease S) := by
  cases a with
  | begin w id args now =>
    simp only [effectRunStep] at h
    split at h
    · next hen =>
      have hdone : (fun v ↦ ((s.setPhase w .done now).phase v).since) =
          fun v ↦ (s.phase v).since := by
        rw [owner_since_setPhase, Function.update_eq_self_iff, hen.2.2.2]
        rfl
      split at h
      · next hrow =>
        obtain rfl := Option.some.inj h
        refine .grant w now hen.1 (fun e he ↦ ?_) (fun now' hg ↦ ?_) rfl
          (owner_since_setPhase s w _ now) rfl
        · rw [hrow] at he
          cases he
        · have hnew : effectGrantable S
              (some (beginNew id (effectKey hexdigest args) args now)) now' := hg
          exact lease_of_effectGrantable rfl rfl hnew
      · next e hrow =>
        obtain rfl := Option.some.inj h
        rw [EffectRun.beginRow]
        split
        · exact .keep (fun _ hg ↦ hg) rfl hdone hen.1
        · exact .keep (fun _ hg ↦ hg) rfl hdone hen.1
        · next e' claim hbegin =>
          obtain ⟨-, hsucc, hstale, rfl, -⟩ := beginExisting_claims hbegin
          refine .grant w now hen.1 (fun e' he ↦ ?_) (fun now' hg ↦ ?_) rfl
            (owner_since_setPhase s w _ now) rfl
          · obtain rfl : e = e' := Option.some.inj (hrow.symm.trans he)
            exact ⟨hsucc, hstale⟩
          · have hnew : effectGrantable S
                (some (reclaimRow (effectKey hexdigest args) now e)) now' := hg
            exact lease_of_effectGrantable rfl rfl hnew
    · cases h
  | complete w status error now =>
    simp only [effectRunStep] at h
    split at h
    · next hen =>
      obtain rfl := Option.some.inj h
      refine .finish w (fun howner now' hg ↦ ?_) rfl (owner_since_setPhase s w _ now) hen.1
      -- An owner that has been superseded finds nothing in flight, so it frees nothing.
      have hsup : s.superseded w = true := by
        rw [EffectRun.superseded, hen.2.1, Bool.true_and]
        exact decide_eq_true howner
      have hlate : s.lateComplete w = false := hC
      rw [EffectRun.lateComplete, hsup, Bool.true_and] at hlate
      exact effectGrantable_of_complete hlate hg
    · cases h

end Refinement

/-! ### Ownership -/

/-- What a call of one owner must not do to the claims of the others. -/
def Owned (S : Settings) (s : EffectRun) (a : EffectRunAction) (t : EffectRun) : Prop :=
  match a with
  | .begin w _ _ now => (t.phase w).since = some now →
      ∀ v g, v ≠ w → (s.phase v).since = some g → g + effectLease S ≤ now
  | .complete w _ _ _ => s.superseded w = true →
      ∀ e, s.row = some e → e.status = .inFlight → t.row = some e

/-- **Ownership, where superseded owners find nothing in flight.** No claim is granted while another
one, not completed, is within its lease, and a late completion ends no claim. -/
theorem effects_are_owned (S : Settings) (hexdigest : String → String) (op type : String)
    (s t : EffectRun) (a : EffectRunAction)
    (hs : (effectRunMachine S hexdigest op type).Reachable NoLateComplete s)
    (hC : NoLateComplete s a) (h : (effectRunMachine S hexdigest op type).step s a = some t) :
    Owned S s a t := by
  have hinv : Lease.Inv (effectLease S) (s.lease S) := by
    refine hs.invariant (I := fun s ↦ Lease.Inv (effectLease S) (s.lease S)) ?_
      fun _ _ _ hinv hC h ↦ hinv.step (ownership_refines hC h)
    rintro s rfl
    refine ⟨?_, ?_⟩
    · intro w g hw
      cases hw
    · intro w g hw
      cases hw
  have hlease := ownership_refines hC h
  cases a with
  | begin w id args now =>
    intro hgranted v g _ hv
    have hbefore : (s.phase w).since = none := by
      change effectRunStep S hexdigest op type s (.begin w id args now) = some t at h
      simp only [effectRunStep] at h
      split at h
      · next hen =>
        rw [hen.2.2.2]
        rfl
      · cases h
    exact hinv.exclusive_of_step hlease hbefore hgranted hv
  | complete w status error now =>
    intro hsup e hrow hin
    have hlate : s.lateComplete w = false := hC
    simp [EffectRun.lateComplete, hsup, hrow, hin] at hlate

/-- The claim that every owner below makes. -/
def emailEffect : BeginArgs := ⟨"email:1", "email", "hash", none⟩

/-- A send fails while nobody else owns the effect. -/
def failedSend : List EffectRunAction :=
  [.begin 0 7 emailEffect 0, .complete 0 .failed (some "smtp down") 1]

theorem failedSend_isSome : ((effectRunMachine .default id "email:1" "email").run NoLateComplete
    .initial failedSend).isSome = true := by
  decide

theorem failedSend_begin_isSome : ((effectRunMachine .default id "email:1" "email").step
    (Option.get _ failedSend_isSome) (.begin 1 8 emailEffect 2)).isSome = true := by
  decide

theorem failedSend_owned : Owned .default (Option.get _ failedSend_isSome)
    (.begin 1 8 emailEffect 2) (Option.get _ failedSend_begin_isSome) :=
  effects_are_owned .default id "email:1" "email" _ _ _ (reachable_run rfl failedSend_isSome) trivial
    (Option.some_get _).symm

/-- A send outlives its lease, and another owner takes the effect over. -/
def supersededSend : List EffectRunAction :=
  [.begin 0 7 emailEffect 0, .begin 1 8 emailEffect 600000000]

theorem supersededSend_isSome : ((effectRunMachine .default id "email:1" "email").run anyStep
    .initial supersededSend).isSome = true := by
  decide

/-- The second owner is sending; the first has not completed. -/
def supersededOwner : EffectRun := Option.get _ supersededSend_isSome

theorem supersededOwner_complete_isSome : ((effectRunMachine .default id "email:1" "email").step
    supersededOwner (.complete 0 .failed (some "smtp down") 600000001)).isSome = true := by
  decide

/-- The first owner has recorded its failure, and the effect is free while the second still sends. -/
def unownedEffect : EffectRun := Option.get _ supersededOwner_complete_isSome

theorem unownedEffect_begin_isSome : ((effectRunMachine .default id "email:1" "email").step
    unownedEffect (.begin 2 9 emailEffect 600000002)).isSome = true := by
  decide

/-- **Neither half of ownership holds of all runs.** A superseded owner ends the claim of its successor,
and the next claim is granted two microseconds into the lease of another. -/
theorem effects_are_not_owned :
    (¬ ∀ s w id' args now t,
      (effectRunMachine .default id "email:1" "email").Reachable anyStep s →
      (effectRunMachine .default id "email:1" "email").step s (.begin w id' args now) = some t →
      Owned .default s (.begin w id' args now) t) ∧
    (¬ ∀ s w status error now t,
      (effectRunMachine .default id "email:1" "email").Reachable anyStep s →
      (effectRunMachine .default id "email:1" "email").step s (.complete w status error now) = some t →
      Owned .default s (.complete w status error now) t) := by
  have hsup : (effectRunMachine .default id "email:1" "email").Reachable anyStep supersededOwner :=
    reachable_run rfl supersededSend_isSome
  have hfree : (effectRunMachine .default id "email:1" "email").step supersededOwner
      (.complete 0 .failed (some "smtp down") 600000001) = some unownedEffect :=
    (Option.some_get _).symm
  refine ⟨fun h ↦ ?_, fun h ↦ ?_⟩
  · have hlease := h _ 2 9 emailEffect 600000002 _ (hsup.tail trivial hfree)
      (Option.some_get unownedEffect_begin_isSome).symm (by decide) 1 600000000 (by decide)
      (by decide)
    exact absurd hlease (by decide)
  · have hrow : supersededOwner.row.map ExternalEffect.status = some .inFlight := by decide
    obtain ⟨e, he, hstatus⟩ := Option.map_eq_some_iff.1 hrow
    have hkept := h _ 0 .failed (some "smtp down") 600000001 _ hsup hfree (by decide) e he hstatus
    have hended : unownedEffect.row.map ExternalEffect.status = some .failed := by decide
    rw [hkept, Option.map_some, hstatus] at hended
    cases hended

end GenericApp
