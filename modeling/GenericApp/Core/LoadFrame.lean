import GenericApp.Core.CacheLoader

/-!
# What a load leaves as it is

A load looks into the tiers, and into each it stores a value in one statement. All its other statements
bring no entry in, and no statement of it counts as a deletion.
-/

namespace GenericApp

open Machine Py

/-- A statement of a load, or one of what befalls the tiers. -/
def CacheLoadAction.isLoad : CacheLoadAction → Bool
  | commit .. | deleteLocal _ | deleteShared .. | restart _ => false
  | _ => true

/-- The process in which the step stores a value. -/
def CacheLoads.storesIn (u : CacheLoads) : CacheLoadAction → Option ℕ
  | .resume i =>
    match u.loads i with
    | some (.heard p _ _ (some _)) => some p
    | _ => none
  | .storeLocal i =>
    match u.loads i with
    | some (.storing p _ _ _) => some p
    | _ => none
  | _ => none

/-- The step stores a value in Redis. -/
def CacheLoadAction.shares : CacheLoadAction → Bool
  | share _ reply => reply ≠ .refused
  | _ => false

namespace CacheLoads

/-- What a load does to the tiers when it does not store there, and to what has been deleted. -/
structure Frame (key : String) (u t : CacheLoads) (storesIn : Option ℕ) (shares : Bool) : Prop where
  removed : t.removed = u.removed
  removedShared : t.removedShared = u.removedShared
  locals : ∀ p, storesIn ≠ some p → ∀ e ∈ (t.locals p).entries, e ∈ (u.locals p).entries
  redis : shares = false → t.redis key = u.redis key ∨ t.redis key = none

variable {S : CacheSettings} {key : String} {ttlSeconds : ℤ} {u t : CacheLoads} {i p since : ℕ}
  {storesIn : Option ℕ} {shares : Bool}

theorem Frame.plain (hremoved : t.removed = u.removed) (hshared : t.removedShared = u.removedShared)
    (hlocals : t.locals = u.locals) (hredis : t.redis = u.redis) : Frame key u t storesIn shares :=
  ⟨hremoved, hshared, fun _ _ _ he ↦ hlocals ▸ he, fun _ ↦ .inl (hredis ▸ rfl)⟩

/-- One process has other entries. -/
theorem Frame.update {L : LocalTTLCache ℕ} (hremoved : t.removed = u.removed)
    (hshared : t.removedShared = u.removedShared) (hlocals : t.locals = Function.update u.locals p L)
    (hL : storesIn ≠ some p → ∀ e ∈ L.entries, e ∈ (u.locals p).entries)
    (hredis : t.redis = u.redis) : Frame key u t storesIn shares := by
  refine ⟨hremoved, hshared, fun q hq e he ↦ ?_, fun _ ↦ .inl (hredis ▸ rfl)⟩
  rw [hlocals] at he
  rcases update_cases (f := u.locals) (i := p) (x := L) rfl q with ⟨rfl, heq⟩ | ⟨-, heq⟩
  · exact hL hq e (heq ▸ he)
  · exact heq ▸ he

/-- A look-up stores nothing. -/
theorem frame_getCached (lookUp : LookUp) :
    Frame key u (u.getCached S key i p since lookUp) storesIn shares := by
  have hread : ∀ e ∈ (readLocal (u.locals p) key u.clock).2.entries, e ∈ (u.locals p).entries := by
    intro e he
    rw [readLocal] at he
    split at he
    · exact LocalTTLCache.mem_get he
    · exact he
  rw [getCached]
  split
  · cases lookUp <;> exact .update rfl rfl rfl (fun _ ↦ hread) rfl
  · split
    · exact .update rfl rfl rfl (fun _ ↦ hread) rfl
    · rw [miss.eq_def]
      split
      · exact .update rfl rfl rfl (fun _ ↦ hread) rfl
      · split <;> exact .update rfl rfl rfl (fun _ ↦ hread) rfl
      · exact .update rfl rfl rfl (fun _ ↦ hread) rfl
      · exact .update rfl rfl rfl (fun _ ↦ hread) rfl

theorem frame_miss (lookUp : LookUp) : Frame key u (u.miss S key i p since lookUp) storesIn shares := by
  rw [miss.eq_def]
  split
  · exact .plain rfl rfl rfl rfl
  · split <;> exact .plain rfl rfl rfl rfl
  · exact .plain rfl rfl rfl rfl
  · exact .plain rfl rfl rfl rfl

/-- **A load changes what it stores, and nothing else.** -/
theorem frame_step {a : CacheLoadAction} (ha : a.isLoad = true)
    (hstep : u.step S key ttlSeconds a = some t) : Frame key u t (u.storesIn a) a.shares := by
  cases a with
  | commit | deleteLocal | deleteShared | restart => exact nomatch ha
  | tick now =>
    rw [step] at hstep
    split at hstep
    · exact Option.some.inj hstep ▸ .plain rfl rfl rfl rfl
    · exact nomatch hstep
  | start i p =>
    rw [step] at hstep
    split at hstep
    · exact nomatch hstep
    · exact Option.some.inj hstep ▸ frame_getCached .first
  | answerGet i reply =>
    rw [step] at hstep
    split at hstep
    · exact Option.some.inj hstep ▸ .plain rfl rfl rfl rfl
    · exact nomatch hstep
  | resume i =>
    rw [step] at hstep
    split at hstep
    · next p since lookUp value hcall =>
      obtain rfl := Option.some.inj hstep
      have hstores : u.storesIn (.resume i) = some p := by rw [storesIn, hcall]
      rw [hstores]
      cases lookUp <;> exact .update rfl rfl rfl (fun h ↦ absurd rfl h) rfl
    · exact Option.some.inj hstep ▸ frame_miss _
    · exact nomatch hstep
  | acquire i =>
    rw [step] at hstep
    split at hstep
    · next p since hcall =>
      split at hstep
      · exact nomatch hstep
      · obtain rfl := Option.some.inj hstep
        have hframe : Frame key { u with flights := Function.update u.flights p (some i) }
            (getCached S key { u with flights := Function.update u.flights p (some i) } i p since .second)
            (u.storesIn (.acquire i)) false := frame_getCached .second
        exact ⟨hframe.removed, hframe.removedShared, hframe.locals, hframe.redis⟩
    · exact nomatch hstep
  | poll i =>
    rw [step] at hstep
    split at hstep
    · split at hstep
      · exact Option.some.inj hstep ▸ frame_getCached _
      · exact Option.some.inj hstep ▸ .plain rfl rfl rfl rfl
    · exact nomatch hstep
  | tryLock i token reply =>
    rw [step] at hstep
    split at hstep
    · cases reply with
      | answered =>
        dsimp only at hstep
        split at hstep <;> exact Option.some.inj hstep ▸ .plain rfl rfl rfl rfl
      | lost => exact Option.some.inj hstep ▸ .plain rfl rfl rfl rfl
      | refused => exact Option.some.inj hstep ▸ .plain rfl rfl rfl rfl
    · exact nomatch hstep
  | readFilled i =>
    rw [step] at hstep
    split at hstep
    · exact Option.some.inj hstep ▸ frame_getCached .last
    · exact nomatch hstep
  | load i | fail i =>
    rw [step] at hstep
    split at hstep
    · exact Option.some.inj hstep ▸ .plain rfl rfl rfl rfl
    · exact nomatch hstep
  | storeLocal i =>
    rw [step] at hstep
    split at hstep
    · next p since token value hcall =>
      obtain rfl := Option.some.inj hstep
      have hstores : u.storesIn (.storeLocal i) = some p := by rw [storesIn, hcall]
      rw [hstores]
      exact .update rfl rfl rfl (fun h ↦ absurd rfl h) rfl
    · exact nomatch hstep
  | share i reply =>
    rw [step] at hstep
    split at hstep
    · obtain rfl := Option.some.inj hstep
      refine ⟨rfl, rfl, fun _ _ _ he ↦ he, fun hshares ↦ .inl ?_⟩
      have hreply : reply = .refused := by simpa [CacheLoadAction.shares] using hshares
      show (if reply ≠ .refused ∧ 0 < ttlSeconds then _ else u.redis) key = _
      rw [if_neg fun h ↦ h.1 hreply]
    · exact nomatch hstep
  | release i reply =>
    rw [step] at hstep
    split at hstep
    · split at hstep <;> exact Option.some.inj hstep ▸ .plain rfl rfl rfl rfl
    · exact nomatch hstep
  | evict p =>
    exact Option.some.inj hstep ▸
      .update rfl rfl rfl (fun _ e he ↦ ((RecencyDict.mem_erase _).1 he).1) rfl
  | forget =>
    obtain rfl := Option.some.inj hstep
    exact ⟨rfl, rfl, fun _ _ _ he ↦ he, fun _ ↦ .inr rfl⟩

end CacheLoads

end GenericApp
