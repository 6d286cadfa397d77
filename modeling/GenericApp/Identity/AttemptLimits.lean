import GenericApp.Core.RateFallback
import GenericApp.Foundation.Machine
import Mathlib.Data.Int.Interval

/-!
# Limits on attempts to sign in

Requests to sign in, of one client for one address, and any others between their commands. A request counts itself and
goes on if the count is within the limit. Then it reads the count of failures, signs in if that is within its limit,
and counts a failure or clears the count.

The first limit holds in every run: the counts of one counter are different numbers. The second does not. The count is
compared when the next failure is still to come, so that one more gets through; and of the requests that have read a
low count, each signs in, whatever the others have counted since. In runs where neither happens (`Careful`), nobody who
is counted out signs in (`sign_in_limited`).
-/

namespace GenericApp

open Py

/-- How `service.sign_in` ends: it returns, it raises with 401 or 403, or it raises something else. -/
inductive SignInOutcome
  | succeeded | failed | raised
deriving DecidableEq

/-- Where a request stands. -/
inductive SignInPhase
  /-- Before `check_rate_limit`. -/
  | arrived
  /-- The attempt is counted, and the lifetime of the counter is read. -/
  | attemptCounted (count : ℤ)
  /-- Too many attempts. -/
  | refused
  /-- Before `enforce_rate_limit`. -/
  | allowed
  /-- The failures are read, and the lifetime of their counter is. -/
  | failuresRead (count : ℤ)
  /-- Too many failures. -/
  | locked
  /-- Before `service.sign_in`, which verifies the password. -/
  | pastCheck
  | signedIn (outcome : SignInOutcome)
  | finished
deriving DecidableEq

/-- A request, and what has counted it: the counter, by the number of those before it, and the count. -/
structure SignInRequest where
  phase : SignInPhase := .arrived
  counted : Option (ℕ × ℤ) := none
deriving DecidableEq

/-- The check of the attempts has let it pass. -/
def SignInRequest.Passed (r : SignInRequest) : Prop :=
  match r.phase with
  | .arrived | .attemptCounted _ | .refused => False
  | _ => True

instance : DecidablePred SignInRequest.Passed := fun r ↦ by
  unfold SignInRequest.Passed
  split <;> infer_instance

/-- What is limited, and how. -/
structure AttemptPolicy where
  maxAttempts : ℤ
  windowSeconds : ℤ
  authFailureLimit : ℤ
  authFailureWindowSeconds : ℤ

/-- `sign_in`, with the settings that it starts with. -/
def AttemptPolicy.signIn : AttemptPolicy := ⟨10, 60, 8, 900⟩

/-- `auth_rate_limit_key` -/
def authRateLimitKey (host email : String) : String := "rate_limit:auth:" ++ host ++ ":" ++ email

/-- `failure_key` -/
def failureKey (host email : String) : String := "rate_limit:auth_fail:" ++ host ++ ":" ++ email

structure AttemptState (σ : Type) where
  store : σ
  now : DateTime
  requests : List SignInRequest
  /-- How many counters of attempts have begun. -/
  counters : ℕ

/-- What others do with their keys. -/
inductive CounterUse
  | increment (windowSeconds : ℤ)
  | read
  | clear

inductive AttemptAction
  | arrive
  | wait (instant : DateTime)
  /-- A request goes on to its next command, and signs in with this outcome if it does. -/
  | move (request : ℕ) (outcome : SignInOutcome)
  | other (key : String) (use : CounterUse)

section Machine

variable {σ : Type} (B : CounterStore σ String) (P : AttemptPolicy) (host email : String)

/-- The next command of a request. -/
def nextMove (s : AttemptState σ) (r : SignInRequest) (outcome : SignInOutcome) : Option (AttemptState σ × SignInRequest) :=
  match r.phase with
  | .arrived =>
    let begun := B.seen s.store (authRateLimitKey host email) s.now = none
    let counters := if begun then s.counters + 1 else s.counters
    let (count, store) := B.increment s.store (authRateLimitKey host email) s.now P.windowSeconds
    some ({ s with store := store, counters := counters }, ⟨.attemptCounted count, some (counters, count)⟩)
  | .attemptCounted count => some (s, { r with phase := if P.maxAttempts < count then .refused else .allowed })
  | .allowed =>
    let (failures, store) := B.read s.store (failureKey host email) s.now
    some ({ s with store := store }, { r with phase := failures.elim .pastCheck .failuresRead })
  | .failuresRead count => some (s, { r with phase := if P.authFailureLimit < count then .locked else .pastCheck })
  | .pastCheck => some (s, { r with phase := .signedIn outcome })
  | .signedIn .succeeded =>
    some ({ s with store := B.clear s.store (failureKey host email) }, { r with phase := .finished })
  | .signedIn .failed =>
    let (_, store) := B.increment s.store (failureKey host email) s.now P.authFailureWindowSeconds
    some ({ s with store := store }, { r with phase := .finished })
  | .signedIn .raised => some (s, { r with phase := .finished })
  | .refused | .locked | .finished => none

/-- A command of another request. -/
def useCounter (store : σ) (key : String) (now : DateTime) : CounterUse → σ
  | .increment windowSeconds => (B.increment store key now windowSeconds).2
  | .read => (B.read store key now).2
  | .clear => B.clear store key

def attemptStep (s : AttemptState σ) : AttemptAction → Option (AttemptState σ)
  | .arrive => some { s with requests := s.requests ++ [{}] }
  | .wait instant => if s.now ≤ instant then some { s with now := instant } else none
  | .move c outcome => do
    let r ← s.requests[c]?
    let (s', r') ← nextMove B P host email s r outcome
    some { s' with requests := s.requests.set c r' }
  | .other key use =>
    if key = authRateLimitKey host email ∨ key = failureKey host email then none
    else some { s with store := useCounter B s.store key s.now use }

/-- The requests, from a store that counts nothing of theirs yet. -/
def signIns : Machine (AttemptState σ) AttemptAction where
  init s := s.requests = [] ∧ ∀ now, s.now ≤ now → B.seen s.store (authRateLimitKey host email) now = none ∧
    B.seen s.store (failureKey host email) now = none
  step := attemptStep B P host email

/-- The failures that are counted are as many as are allowed. -/
def LockedOut (s : AttemptState σ) : Prop :=
  ∃ count, B.seen s.store (failureKey host email) s.now = some count ∧ P.authFailureLimit ≤ count

/-- **The limits hold**: of the requests that one counter has counted, no more pass than are allowed; and nobody is
about to have a password verified once enough failures are counted. -/
structure AttemptsLimited (s : AttemptState σ) : Prop where
  counted : ∀ r ∈ s.requests, r.Passed → r.counted ≠ none
  attempts : ∀ counter, (s.requests.countP fun r ↦ r.Passed ∧ r.counted.map Prod.fst = some counter) ≤
    P.maxAttempts.toNat
  failures : LockedOut B P host email s → ∀ r ∈ s.requests, r.phase ≠ .pastCheck

/-- It has read its count of failures, and that lets it pass. -/
def SignInRequest.Cleared (P : AttemptPolicy) (r : SignInRequest) : Prop :=
  match r.phase with
  | .failuresRead count => count ≤ P.authFailureLimit
  | .pastCheck => True
  | _ => False

instance : DecidablePred (SignInRequest.Cleared P) := fun r ↦ by
  unfold SignInRequest.Cleared
  split <;> infer_instance

/-- The store keeps what it has in this step. -/
def StepFits (s : AttemptState σ) : AttemptAction → Prop
  | .move c _ =>
    match (s.requests[c]?).map SignInRequest.phase with
    | some .arrived => B.Fits s.store (authRateLimitKey host email) s.now
    | some (.signedIn .failed) => B.Fits s.store (failureKey host email) s.now
    | _ => True
  | .other key (.increment _) => B.Fits s.store key s.now
  | _ => True

/-- **Nobody gets through who should not**: no request reads a count of failures that has reached its limit and not
passed it; and when a failure is counted that reaches the limit, no other request has passed and not signed in. -/
def Careful (s : AttemptState σ) : AttemptAction → Prop
  | .move c _ =>
    match (s.requests[c]?).map SignInRequest.phase with
    | some .allowed => B.seen s.store (failureKey host email) s.now ≠ some P.authFailureLimit
    | some (.signedIn .failed) =>
      P.authFailureLimit ≤ (B.seen s.store (failureKey host email) s.now).getD 0 + 1 →
        ∀ r ∈ s.requests, ¬r.Cleared P
    | _ => True
  | _ => True

instance [∀ store key now, Decidable (B.Fits store key now)] (s : AttemptState σ) (a : AttemptAction) :
    Decidable (StepFits B host email s a) := by
  unfold StepFits
  split
  · split <;> infer_instance
  · infer_instance
  · infer_instance

instance (s : AttemptState σ) (a : AttemptAction) : Decidable (Careful B P host email s a) := by
  unfold Careful
  split
  · split <;> infer_instance
  · infer_instance

end Machine

/-! ### Counts -/

section Counts

variable {σ : Type} {B : CounterStore σ String} {P : AttemptPolicy} {host email : String} {s s' : AttemptState σ}
  {a : AttemptAction}

theorem prefix_key (start host email : String) : start.toList <+: (start ++ host ++ ":" ++ email).toList := by
  rw [String.append_assoc, String.append_assoc, String.toList_append]
  exact List.prefix_append _ _

theorem authRateLimitKey_ne_failureKey (host email : String) : authRateLimitKey host email ≠ failureKey host email := by
  intro h
  have hfront : "rate_limit:auth:".toList <+: (authRateLimitKey host email).toList := prefix_key _ host email
  have hfail : "rate_limit:auth_fail:".toList <+: (failureKey host email).toList := prefix_key _ host email
  rw [← h] at hfail
  exact absurd (List.prefix_of_prefix_length_le hfront hfail (by decide)) (by decide)

/-- One of the requests, and the others. -/
theorem exists_split {l : List SignInRequest} {c : ℕ} {r : SignInRequest} (h : l[c]? = some r) :
    ∃ front back, l = front ++ r :: back ∧ ∀ r', l.set c r' = front ++ r' :: back := by
  obtain ⟨hlt, rfl⟩ := List.getElem?_eq_some_iff.1 h
  refine ⟨l.take c, l.drop (c + 1), ?_, fun r' ↦ List.set_eq_take_append_cons_drop.trans (if_pos hlt)⟩
  rw [← List.drop_eq_getElem_cons hlt, List.take_append_drop]

/-- What a request has been counted as, where it stands. -/
def SignInRequest.CountedRight (P : AttemptPolicy) (r : SignInRequest) : Prop :=
  match r.phase with
  | .arrived => r.counted = none
  | .attemptCounted count => ∃ counter, r.counted = some (counter, count)
  | .refused => True
  | _ => ∃ counter count, r.counted = some (counter, count) ∧ count ≤ P.maxAttempts

/-- No count is given twice, and those of the counter that is seen are no higher than it. -/
structure Tallied (B : CounterStore σ String) (P : AttemptPolicy) (host email : String) (s : AttemptState σ) :
    Prop where
  positive : ∀ count, B.seen s.store (authRateLimitKey host email) s.now = some count → 1 ≤ count
  nodup : (s.requests.filterMap SignInRequest.counted).Nodup
  range : ∀ p ∈ s.requests.filterMap SignInRequest.counted, 1 ≤ p.2 ∧ p.1 ≤ s.counters ∧
    (p.1 = s.counters → ∀ count, B.seen s.store (authRateLimitKey host email) s.now = some count → p.2 ≤ count)
  right : ∀ r ∈ s.requests, r.CountedRight P

/-- Nothing new is counted. -/
theorem Tallied.of_same (h : Tallied B P host email s)
    (hcounted : s'.requests.filterMap SignInRequest.counted = s.requests.filterMap SignInRequest.counted)
    (hcounters : s'.counters = s.counters)
    (hseen : ∀ count, B.seen s'.store (authRateLimitKey host email) s'.now = some count →
      B.seen s.store (authRateLimitKey host email) s.now = some count)
    (hright : ∀ r ∈ s'.requests, r.CountedRight P) : Tallied B P host email s' where
  positive count hcount := h.positive count (hseen count hcount)
  nodup := hcounted ▸ h.nodup
  range p hp := by
    obtain ⟨hpos, hle, hcur⟩ := h.range p (hcounted ▸ hp)
    exact ⟨hpos, hcounters ▸ hle, fun heq count hcount ↦ hcur (heq.trans hcounters) count (hseen count hcount)⟩
  right := hright

/-- **A new count is a new number.** -/
theorem Tallied.of_increment (h : Tallied B P host email s) {front back : List SignInRequest} {r : SignInRequest}
    (hr : s.requests = front ++ r :: back) (hphase : r.phase = .arrived) {outcome : SignInOutcome}
    {r' : SignInRequest} (hadvance : nextMove B P host email s r outcome = some (s', r')) :
    Tallied B P host email { s' with requests := front ++ r' :: back } := by
  have hadvance' : some (s', r') = some _ := hadvance.symm.trans (by rw [nextMove, hphase])
  obtain ⟨rfl, rfl⟩ := Prod.mk.inj (Option.some.inj hadvance')
  set count := (B.increment s.store (authRateLimitKey host email) s.now P.windowSeconds).1 with hcount
  set counters := if B.seen s.store (authRateLimitKey host email) s.now = none then s.counters + 1 else s.counters
    with hcounters
  have hself : ∀ c, B.seen (B.increment s.store (authRateLimitKey host email) s.now P.windowSeconds).2
      (authRateLimitKey host email) s.now = some c → c = count := fun c ↦ B.increment_self le_rfl
  -- the counter begins, and the numbers of the others are lower; or it goes on, and their counts are
  have hlower : 1 ≤ count ∧ s.counters ≤ counters ∧ ∀ p ∈ s.requests.filterMap SignInRequest.counted,
      p.1 = counters → p.2 < count := by
    have hnext : count = (B.seen s.store (authRateLimitKey host email) s.now).getD 0 + 1 := B.increment_count
    rcases hseen : B.seen s.store (authRateLimitKey host email) s.now with - | c
    · rw [hseen, Option.getD_none] at hnext
      rw [hseen, if_pos rfl] at hcounters
      refine ⟨by omega, by omega, fun p hp heq ↦ ?_⟩
      have := (h.range p hp).2.1
      omega
    · rw [hseen, Option.getD_some] at hnext
      rw [hseen, if_neg nofun] at hcounters
      refine ⟨by have := h.positive c hseen; omega, hcounters.ge, fun p hp heq ↦ ?_⟩
      have := (h.range p hp).2.2 (heq.trans hcounters) c hseen
      omega
  obtain ⟨hpos, hle, hfresh⟩ := hlower
  have hnone : r.counted = none := by
    have hright := h.right r (hr ▸ List.mem_append_right _ List.mem_cons_self)
    rwa [SignInRequest.CountedRight, hphase] at hright
  have hperm : ((front ++ ⟨.attemptCounted count, some (counters, count)⟩ :: back).filterMap
      SignInRequest.counted).Perm ((counters, count) :: s.requests.filterMap SignInRequest.counted) := by
    rw [hr, List.filterMap_append, List.filterMap_append, List.filterMap_cons_none hnone]
    exact List.perm_middle
  refine ⟨fun c hc ↦ hself c hc ▸ hpos, hperm.nodup_iff.2 (List.nodup_cons.2 ⟨fun hmem ↦ ?_, h.nodup⟩),
    fun p hp ↦ ?_, fun r' hr' ↦ ?_⟩
  · exact lt_irrefl _ (hfresh _ hmem rfl)
  · rcases List.mem_cons.1 (hperm.mem_iff.1 hp) with rfl | hp
    · exact ⟨hpos, le_rfl, fun _ c hc ↦ (hself c hc).ge⟩
    · obtain ⟨hp1, hp2, -⟩ := h.range p hp
      exact ⟨hp1, hp2.trans hle, fun heq c hc ↦ (hself c hc).symm ▸ (hfresh p hp heq).le⟩
  · rcases List.mem_append.1 hr' with hr' | hr'
    · exact h.right r' (hr ▸ List.mem_append_left _ hr')
    · rcases List.mem_cons.1 hr' with rfl | hr'
      · exact ⟨counters, rfl⟩
      · exact h.right r' (hr ▸ List.mem_append_right _ (List.mem_cons_of_mem _ hr'))

/-- After the check of the attempts, a request is not counted again. -/
theorem advance_same {r r' : SignInRequest} {outcome : SignInOutcome} (hright : r.CountedRight P)
    (hphase : r.phase ≠ .arrived) (hfits : r.phase = .signedIn .failed → B.Fits s.store (failureKey host email) s.now)
    (hadvance : nextMove B P host email s r outcome = some (s', r')) :
    r'.counted = r.counted ∧ r'.CountedRight P ∧ s'.counters = s.counters ∧ s'.now = s.now ∧
      B.seen s'.store (authRateLimitKey host email) s.now = B.seen s.store (authRateLimitKey host email) s.now := by
  have hne := authRateLimitKey_ne_failureKey host email
  obtain ⟨phase, counted⟩ := r
  cases phase with
  | arrived => exact absurd rfl hphase
  | attemptCounted count =>
    obtain ⟨rfl, rfl⟩ := Prod.mk.inj (Option.some.inj hadvance)
    obtain ⟨counter, hcounted⟩ := hright
    refine ⟨rfl, ?_, rfl, rfl, rfl⟩
    by_cases hlt : P.maxAttempts < count
    · simp only [if_pos hlt, SignInRequest.CountedRight]
    · simpa only [if_neg hlt, SignInRequest.CountedRight] using ⟨counter, count, hcounted, not_lt.1 hlt⟩
  | allowed =>
    obtain ⟨rfl, rfl⟩ := Prod.mk.inj (Option.some.inj hadvance)
    refine ⟨rfl, ?_, rfl, rfl, B.read_seen le_rfl⟩
    cases (B.read s.store (failureKey host email) s.now).1 with
    | _ => exact hright
  | failuresRead count =>
    obtain ⟨rfl, rfl⟩ := Prod.mk.inj (Option.some.inj hadvance)
    refine ⟨rfl, ?_, rfl, rfl, rfl⟩
    by_cases hlt : P.authFailureLimit < count
    · rw [if_pos hlt]
      exact hright
    · rw [if_neg hlt]
      exact hright
  | pastCheck =>
    obtain ⟨rfl, rfl⟩ := Prod.mk.inj (Option.some.inj hadvance)
    exact ⟨rfl, hright, rfl, rfl, rfl⟩
  | signedIn result =>
    cases result with
    | succeeded =>
      obtain ⟨rfl, rfl⟩ := Prod.mk.inj (Option.some.inj hadvance)
      exact ⟨rfl, hright, rfl, rfl, B.clear_other hne⟩
    | failed =>
      obtain ⟨rfl, rfl⟩ := Prod.mk.inj (Option.some.inj hadvance)
      exact ⟨rfl, hright, rfl, rfl, B.increment_other (hfits rfl) hne le_rfl⟩
    | raised =>
      obtain ⟨rfl, rfl⟩ := Prod.mk.inj (Option.some.inj hadvance)
      exact ⟨rfl, hright, rfl, rfl, rfl⟩
  | refused => exact nomatch hadvance
  | locked => exact nomatch hadvance
  | finished => exact nomatch hadvance

/-- The keys of others are not these. -/
theorem seen_useCounter {store : σ} {key other : String} {now : DateTime} {use : CounterUse} {requests : List SignInRequest}
    {counters : ℕ} (hfits : StepFits B host email ⟨store, now, requests, counters⟩ (.other key use)) (hne : other ≠ key) :
    B.seen (useCounter B store key now use) other now = B.seen store other now := by
  cases use with
  | increment windowSeconds => exact B.increment_other hfits hne le_rfl
  | read => exact B.read_seen le_rfl
  | clear => exact B.clear_other hne

theorem counted_step (h : Tallied B P host email s) (hfits : StepFits B host email s a)
    (hstep : (signIns B P host email).step s a = some s') : Tallied B P host email s' := by
  cases a with
  | arrive =>
    obtain rfl := Option.some.inj hstep
    refine h.of_same ?_ rfl (fun _ ↦ id) fun r hr ↦ ?_
    · exact (List.filterMap_append ..).trans (List.append_nil _)
    · rcases List.mem_append.1 hr with hr | hr
      · exact h.right r hr
      · obtain rfl := List.mem_singleton.1 hr
        exact rfl
  | wait instant =>
    obtain ⟨hle, heq⟩ := Option.ite_none_right_eq_some.1 hstep
    obtain rfl := Option.some.inj heq
    exact h.of_same rfl rfl (fun _ ↦ B.seen_of_le hle) h.right
  | other key use =>
    obtain ⟨hkey, heq⟩ := Option.ite_none_left_eq_some.1 hstep
    obtain rfl := Option.some.inj heq
    obtain ⟨hauth, -⟩ := not_or.1 hkey
    exact h.of_same rfl rfl (fun count hcount ↦ (seen_useCounter hfits (Ne.symm hauth)).symm.trans hcount) h.right
  | move c outcome =>
    obtain ⟨r, hr, hstep⟩ := Option.bind_eq_some_iff.1 hstep
    obtain ⟨⟨s₁, r'⟩, hadvance, heq⟩ := Option.bind_eq_some_iff.1 hstep
    obtain rfl := Option.some.inj heq
    obtain ⟨front, back, hsplit, hset⟩ := exists_split hr
    rw [hset r']
    by_cases hphase : r.phase = .arrived
    · exact h.of_increment hsplit hphase hadvance
    have hfailed : r.phase = .signedIn .failed → B.Fits s.store (failureKey host email) s.now := fun heq ↦ by
      simpa only [StepFits, hr, Option.map_some, heq] using hfits
    have hmem : r ∈ s.requests := hsplit ▸ List.mem_append_right _ List.mem_cons_self
    obtain ⟨hcounted, hright, hcounters, hnow, hseen⟩ := advance_same (h.right r hmem) hphase hfailed hadvance
    refine h.of_same ?_ hcounters (fun count hcount ↦ ?_) fun r₁ hr₁ ↦ ?_
    · rw [hsplit]
      simp only [List.filterMap_append, List.filterMap_cons, hcounted]
    · rw [← hseen]
      exact hnow ▸ hcount
    · rcases List.mem_append.1 hr₁ with hr₁ | hr₁
      · exact h.right r₁ (hsplit ▸ List.mem_append_left _ hr₁)
      · rcases List.mem_cons.1 hr₁ with rfl | hr₁
        · exact hright
        · exact h.right r₁ (hsplit ▸ List.mem_append_right _ (List.mem_cons_of_mem _ hr₁))

theorem SignInRequest.Passed.counted {r : SignInRequest} (h : r.Passed) (hright : r.CountedRight P) :
    ∃ counter count, r.counted = some (counter, count) ∧ count ≤ P.maxAttempts := by
  obtain ⟨phase, counted⟩ := r
  cases phase with
  | arrived => exact h.elim
  | attemptCounted => exact h.elim
  | refused => exact h.elim
  | _ => exact hright

/-- Different numbers within a limit are no more than it. -/
theorem Tallied.attempts (h : Tallied B P host email s) (counter : ℕ) :
    (s.requests.countP fun r ↦ r.Passed ∧ r.counted.map Prod.fst = some counter) ≤ P.maxAttempts.toNat := by
  set counts := ((s.requests.filterMap SignInRequest.counted).filter fun p ↦
    p.1 = counter ∧ p.2 ≤ P.maxAttempts).map Prod.snd with hcounts
  have hle : (s.requests.countP fun r ↦ r.Passed ∧ r.counted.map Prod.fst = some counter) ≤ counts.length := by
    rw [hcounts, List.length_map, ← List.countP_eq_length_filter, List.countP_filterMap]
    refine List.countP_mono_left fun r hr hpassed ↦ ?_
    obtain ⟨hpassed, hcounter⟩ := of_decide_eq_true hpassed
    obtain ⟨k, count, hcounted, hlimit⟩ := hpassed.counted (h.right r hr)
    rw [hcounted] at hcounter ⊢
    exact decide_eq_true ⟨Option.some.inj hcounter, hlimit⟩
  have hnodup : counts.Nodup := (h.nodup.filter _).map_on fun p hp q hq heq ↦ by
    have hp := (of_decide_eq_true (List.mem_filter.1 hp).2).1
    have hq := (of_decide_eq_true (List.mem_filter.1 hq).2).1
    exact Prod.ext (hp.trans hq.symm) heq
  have hrange : counts.toFinset ⊆ Finset.Icc 1 P.maxAttempts := fun k hk ↦ by
    obtain ⟨p, hp, rfl⟩ := List.mem_map.1 (List.mem_toFinset.1 hk)
    obtain ⟨hp, hlimit⟩ := List.mem_filter.1 hp
    exact Finset.mem_Icc.2 ⟨(h.range p hp).1, (of_decide_eq_true hlimit).2⟩
  calc _ ≤ counts.length := hle
    _ = counts.toFinset.card := (List.toFinset_card_of_nodup hnodup).symm
    _ ≤ (Finset.Icc 1 P.maxAttempts).card := Finset.card_le_card hrange
    _ = P.maxAttempts.toNat := by simp

/-! ### Failures -/

/-- Once enough failures are counted, nobody is on the way to have a password verified. -/
def Guarded (B : CounterStore σ String) (P : AttemptPolicy) (host email : String) (s : AttemptState σ) : Prop :=
  LockedOut B P host email s → ∀ r ∈ s.requests, ¬r.Cleared P

/-- **One command**: who is counted out does not get through, and nobody is counted out who has got through. -/
theorem advance_guarded (h : Guarded B P host email s) {r r' : SignInRequest} {outcome : SignInOutcome} {c : ℕ}
    (hr : s.requests[c]? = some r) (hfits : StepFits B host email s (.move c outcome))
    (hcareful : Careful B P host email s (.move c outcome))
    (hadvance : nextMove B P host email s r outcome = some (s', r')) (hlocked : LockedOut B P host email s') :
    (∀ r ∈ s.requests, ¬r.Cleared P) ∧ ¬r'.Cleared P := by
  have hne := authRateLimitKey_ne_failureKey host email
  have hmem := List.mem_of_getElem? hr
  obtain ⟨phase, counted⟩ := r
  simp only [StepFits, Careful, hr, Option.map_some] at hfits hcareful
  obtain ⟨failures, hseen, hlimit⟩ := hlocked
  cases phase with
  | arrived =>
    obtain ⟨rfl, rfl⟩ := Prod.mk.inj (Option.some.inj hadvance)
    rw [B.increment_other hfits hne.symm le_rfl] at hseen
    exact ⟨h ⟨failures, hseen, hlimit⟩, id⟩
  | attemptCounted count =>
    obtain ⟨rfl, rfl⟩ := Prod.mk.inj (Option.some.inj hadvance)
    refine ⟨h ⟨failures, hseen, hlimit⟩, ?_⟩
    dsimp only
    split
    · exact id
    · exact id
  | allowed =>
    obtain ⟨rfl, rfl⟩ := Prod.mk.inj (Option.some.inj hadvance)
    rw [B.read_seen le_rfl] at hseen
    refine ⟨h ⟨failures, hseen, hlimit⟩, ?_⟩
    rw [B.read_count, hseen]
    exact fun hcleared ↦ hcareful (hseen.trans (congrArg some (le_antisymm hcleared hlimit)))
  | failuresRead count =>
    obtain ⟨rfl, rfl⟩ := Prod.mk.inj (Option.some.inj hadvance)
    have hnone := h ⟨failures, hseen, hlimit⟩
    refine ⟨hnone, ?_⟩
    have hover : P.authFailureLimit < count := not_le.1 (hnone _ hmem)
    rw [if_pos hover]
    exact id
  | pastCheck =>
    obtain ⟨rfl, rfl⟩ := Prod.mk.inj (Option.some.inj hadvance)
    exact ⟨h ⟨failures, hseen, hlimit⟩, id⟩
  | signedIn result =>
    cases result with
    | succeeded =>
      obtain ⟨rfl, rfl⟩ := Prod.mk.inj (Option.some.inj hadvance)
      exact nomatch hseen.symm.trans B.clear_self
    | failed =>
      obtain ⟨rfl, rfl⟩ := Prod.mk.inj (Option.some.inj hadvance)
      have hcount := (B.increment_self le_rfl hseen).trans B.increment_count
      exact ⟨hcareful (hlimit.trans_eq hcount), id⟩
    | raised =>
      obtain ⟨rfl, rfl⟩ := Prod.mk.inj (Option.some.inj hadvance)
      exact ⟨h ⟨failures, hseen, hlimit⟩, id⟩
  | refused => exact nomatch hadvance
  | locked => exact nomatch hadvance
  | finished => exact nomatch hadvance

theorem guarded_step (h : Guarded B P host email s) (hfits : StepFits B host email s a)
    (hcareful : Careful B P host email s a) (hstep : (signIns B P host email).step s a = some s') :
    Guarded B P host email s' := by
  rintro hlocked r hr
  cases a with
  | arrive =>
    obtain rfl := Option.some.inj hstep
    rcases List.mem_append.1 hr with hr | hr
    · exact h hlocked r hr
    · obtain rfl := List.mem_singleton.1 hr
      exact id
  | wait instant =>
    obtain ⟨hle, heq⟩ := Option.ite_none_right_eq_some.1 hstep
    obtain rfl := Option.some.inj heq
    obtain ⟨failures, hseen, hlimit⟩ := hlocked
    exact h ⟨failures, B.seen_of_le hle hseen, hlimit⟩ r hr
  | other key use =>
    obtain ⟨hkey, heq⟩ := Option.ite_none_left_eq_some.1 hstep
    obtain rfl := Option.some.inj heq
    obtain ⟨failures, hseen, hlimit⟩ := hlocked
    refine h ⟨failures, ?_, hlimit⟩ r hr
    rwa [seen_useCounter hfits fun heq ↦ hkey (.inr heq.symm)] at hseen
  | move c outcome =>
    obtain ⟨r₀, hr₀, hstep⟩ := Option.bind_eq_some_iff.1 hstep
    obtain ⟨⟨s₁, r'⟩, hadvance, heq⟩ := Option.bind_eq_some_iff.1 hstep
    obtain rfl := Option.some.inj heq
    obtain ⟨hnone, hmoved⟩ := advance_guarded h hr₀ hfits hcareful hadvance hlocked
    rcases List.mem_or_eq_of_mem_set hr with hr | rfl
    · exact hnone r hr
    · exact hmoved

/-! ### Runs -/

theorem counted_of_reachable (h : (signIns B P host email).Reachable (StepFits B host email) s) :
    Tallied B P host email s := by
  refine h.invariant (I := Tallied B P host email) ?_ fun s₀ a t hcounted hfits ↦ counted_step hcounted hfits
  rintro s₀ ⟨hnone, hempty⟩
  have hright : ∀ r ∈ s₀.requests, False := by simp [hnone]
  refine ⟨fun count hcount ↦ ?_, by simp [hnone], by simp [hnone], fun r hr ↦ (hright r hr).elim⟩
  exact nomatch hcount.symm.trans (hempty s₀.now le_rfl).1

/-- **The first limit holds** in every run. -/
theorem attempts_limited (h : (signIns B P host email).Reachable (StepFits B host email) s) :
    (∀ r ∈ s.requests, r.Passed → r.counted ≠ none) ∧ ∀ counter,
      (s.requests.countP fun r ↦ r.Passed ∧ r.counted.map Prod.fst = some counter) ≤ P.maxAttempts.toNat := by
  refine ⟨fun r hr hpassed hnone ↦ ?_, (counted_of_reachable h).attempts⟩
  obtain ⟨counter, count, hcounted, -⟩ := hpassed.counted ((counted_of_reachable h).right r hr)
  exact nomatch hnone.symm.trans hcounted

/-- **Both hold** in every run that is careful. -/
theorem attemptsLimited (h : (signIns B P host email).Reachable
    (fun s a ↦ StepFits B host email s a ∧ Careful B P host email s a) s) : AttemptsLimited B P host email s := by
  obtain ⟨hcounted, hattempts⟩ := attempts_limited (h.mono fun _ _ ↦ And.left)
  have hguarded : Guarded B P host email s := by
    refine h.invariant (I := Guarded B P host email) ?_ fun s₀ a t hguarded hC ↦ guarded_step hguarded hC.1 hC.2
    rintro s₀ ⟨hnone, -⟩ - r hr
    exact absurd (hnone ▸ hr) List.not_mem_nil
  refine ⟨hcounted, hattempts, fun hlocked r hr hphase ↦ hguarded hlocked r hr ?_⟩
  rw [SignInRequest.Cleared, hphase]
  trivial

theorem stepFits_of_fits (h : ∀ store key now, B.Fits store key now) (s : AttemptState σ) (a : AttemptAction) :
    StepFits B host email s a := by
  rcases a with - | - | ⟨c, outcome⟩ | ⟨key, use⟩
  · trivial
  · trivial
  · unfold StepFits
    dsimp only
    split
    · exact h ..
    · exact h ..
    · trivial
  · cases use with
    | increment windowSeconds => exact h ..
    | read => trivial
    | clear => trivial

end Counts

/-- **The limits of signing in**, while Redis answers, and in a process while it does not. -/
theorem sign_in_limited (P : AttemptPolicy) (host email : String) :
    (∀ s, (signIns redisCounters P host email).Reachable (Careful redisCounters P host email) s →
      AttemptsLimited redisCounters P host email s) ∧
    ∀ s, (signIns localCounters P host email).Reachable
        (fun s a ↦ StepFits localCounters host email s a ∧ Careful localCounters P host email s a) s →
      AttemptsLimited localCounters P host email s := by
  exact ⟨fun s h ↦ attemptsLimited (h.mono fun s a hcareful ↦ ⟨stepFits_of_fits (fun _ _ _ ↦ trivial) s a, hcareful⟩),
    fun s h ↦ attemptsLimited h⟩

/-- The requests that a counter has let pass. -/
def AttemptState.passed {σ : Type} (s : AttemptState σ) (counter : ℕ) : ℕ :=
  s.requests.countP fun r ↦ r.Passed ∧ r.counted.map Prod.fst = some counter

/-- **The first limit holds in every run**, however the requests take turns: while Redis answers; and in a process while
it does not, if the counters of the others leave room for that of the client. -/
theorem attempt_limit_holds (P : AttemptPolicy) (host email : String) :
    (∀ s, (signIns redisCounters P host email).Reachable Machine.anyStep s →
      ∀ counter, s.passed counter ≤ P.maxAttempts.toNat) ∧
    ∀ s, (signIns localCounters P host email).Reachable (StepFits localCounters host email) s →
      ∀ counter, s.passed counter ≤ P.maxAttempts.toNat :=
  ⟨fun _ h ↦ (attempts_limited (h.mono fun s a _ ↦ stepFits_of_fits (fun _ _ _ ↦ trivial) s a)).2,
    fun _ h ↦ (attempts_limited h).2⟩

/-! ### One failure too many -/

/-- Nothing is counted, and nobody signs in. -/
def noAttempts {σ : Type} (store : σ) : AttemptState σ := ⟨store, 0, [], 0⟩

/-- One request after the other fails, up to the limit, and another one comes to have its password verified. -/
def failUpTo (limit : ℕ) : List AttemptAction :=
  (List.range limit).flatMap (fun i ↦ .arrive :: List.replicate (if i = 0 then 5 else 6) (.move i .failed)) ++
    .arrive :: List.replicate 4 (.move limit .failed)

theorem attempt_limit_holds_one : ∃ s, (signIns redisCounters .signIn "host" "a@b.c").Reachable Machine.anyStep s ∧
    s.requests.length = 2 ∧ ∀ counter, s.passed counter ≤ 10 := by
  have hrun : ((signIns redisCounters .signIn "host" "a@b.c").run Machine.anyStep (noAttempts ExpiringStore.empty)
      (failUpTo 1)).map (fun s ↦ s.requests.length) = some 2 := by
    decide +kernel
  obtain ⟨s, hs, heq⟩ := Option.map_eq_some_iff.1 hrun
  have h : (signIns redisCounters .signIn "host" "a@b.c").Reachable Machine.anyStep s :=
    ⟨_, ⟨rfl, fun _ _ ↦ ⟨rfl, rfl⟩⟩, Machine.later_of_run hs⟩
  exact ⟨s, h, heq, (attempt_limit_holds .signIn "host" "a@b.c").1 s h⟩

/-- **Eight failures are counted**, and a ninth password is verified. -/
theorem ninth_password : ∃ s, (signIns redisCounters .signIn "host" "a@b.c").Reachable Machine.anyStep s ∧
    ¬AttemptsLimited redisCounters .signIn "host" "a@b.c" s := by
  have hrun : ((signIns redisCounters .signIn "host" "a@b.c").run Machine.anyStep (noAttempts ExpiringStore.empty)
      (failUpTo 8)).map (fun s ↦ (redisCounters.seen s.store (failureKey "host" "a@b.c") s.now, s.requests[8]?)) =
        some (some 8, some ⟨.pastCheck, some (1, 9)⟩) := by
    decide +kernel
  obtain ⟨s, hs, heq⟩ := Option.map_eq_some_iff.1 hrun
  obtain ⟨hseen, hr⟩ := Prod.mk.inj heq
  refine ⟨s, ⟨_, ⟨rfl, fun _ _ ↦ ⟨rfl, rfl⟩⟩, Machine.later_of_run hs⟩, fun hlimited ↦ ?_⟩
  exact hlimited.failures ⟨8, hseen, le_rfl⟩ _ (List.mem_of_getElem? hr) rfl

/-- One that fails leaves both limits as they are. -/
theorem sign_in_limited_one :
    (∃ s, (signIns redisCounters .signIn "host" "a@b.c").Reachable (Careful redisCounters .signIn "host" "a@b.c") s ∧
        s.requests.length = 2 ∧ AttemptsLimited redisCounters .signIn "host" "a@b.c" s) ∧
      ∃ s, (signIns localCounters .signIn "host" "a@b.c").Reachable (fun s a ↦
          StepFits localCounters "host" "a@b.c" s a ∧ Careful localCounters .signIn "host" "a@b.c" s a) s ∧
        s.requests.length = 2 ∧ AttemptsLimited localCounters .signIn "host" "a@b.c" s := by
  constructor
  · have hrun : ((signIns redisCounters .signIn "host" "a@b.c").run (Careful redisCounters .signIn "host" "a@b.c")
        (noAttempts ExpiringStore.empty) (failUpTo 1)).map (fun s ↦ s.requests.length) = some 2 := by
      decide +kernel
    obtain ⟨s, hs, heq⟩ := Option.map_eq_some_iff.1 hrun
    refine ⟨s, ⟨_, ⟨rfl, fun _ _ ↦ ⟨rfl, rfl⟩⟩, Machine.later_of_run hs⟩, heq, ?_⟩
    exact (sign_in_limited .signIn "host" "a@b.c").1 s ⟨_, ⟨rfl, fun _ _ ↦ ⟨rfl, rfl⟩⟩, Machine.later_of_run hs⟩
  · have hrun : ((signIns localCounters .signIn "host" "a@b.c").run (fun s a ↦
        StepFits localCounters "host" "a@b.c" s a ∧ Careful localCounters .signIn "host" "a@b.c" s a)
        (noAttempts Mapping.empty) (failUpTo 1)).map (fun s ↦ s.requests.length) = some 2 := by
      decide +kernel
    obtain ⟨s, hs, heq⟩ := Option.map_eq_some_iff.1 hrun
    refine ⟨s, ⟨_, ⟨rfl, fun _ _ ↦ ⟨rfl, rfl⟩⟩, Machine.later_of_run hs⟩, heq, ?_⟩
    exact (sign_in_limited .signIn "host" "a@b.c").2 s ⟨_, ⟨rfl, fun _ _ ↦ ⟨rfl, rfl⟩⟩, Machine.later_of_run hs⟩

end GenericApp
