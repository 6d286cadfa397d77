import GenericApp.Foundation.Machine
import GenericApp.Workers.ApplicationJob

/-!
# The external-effect ledger

`external_effects`: one row per operation and effect type, for effects that must not be repeated just
because a worker died after it caused one. `begin_external_effect` claims the effect, or says that
there is nothing to do; `complete_external_effect` records how it went. Both decide and write under
`SELECT … FOR UPDATE`, so each is one step, except that a first claim inserts its row in a later step
and may lose to another on `uq_external_effects_operation_type`; it then looks again, once.

`beginExisting` and `completeExisting` are the two decisions, `ledgerMachine` runs any number of calls
of both in any order. Its clock readings need not be ordered. `granted` is not part of the program: it
records the claims answered with `should_execute=True`.

The hexadecimal SHA-256 digest is a parameter. Nothing below depends on what it computes.
-/

namespace GenericApp

open Py

/-! ### The relation -/

/-- `ExternalEffect.status`. -/
inductive EffectStatus
  | inFlight | succeeded | failed
  deriving DecidableEq, Repr

/-- A row of `external_effects`. -/
structure ExternalEffect where
  id : Uuid
  operationId : String
  effectType : String
  status : EffectStatus
  payloadHash : String
  attempts : ℕ
  providerIdempotencyKey : Option String
  lastError : Option String
  startedAt : DateTime
  completedAt : Option DateTime
  createdAt : DateTime
  updatedAt : DateTime
  deriving DecidableEq, Repr

/-- The primary key and `uq_external_effects_operation_type`. -/
def effectSchema : Schema ExternalEffect (Uuid × String × String) where
  ident e := (e.id, e.operationId, e.effectType)
  Compat a b := a.1 ≠ b.1 ∧ a.2 ≠ b.2

instance : DecidableRel effectSchema.Compat := fun a b ↦
  inferInstanceAs (Decidable (a.1 ≠ b.1 ∧ a.2 ≠ b.2))

/-- The relation `external_effects`. -/
abbrev EffectTable := Table effectSchema

/-- `WHERE operation_id = … AND effect_type = …` -/
def byEffect (op type : String) (i : Uuid × String × String) : Bool := i.2 = (op, type)

@[simp] theorem byEffect_ident (op type : String) (e : ExternalEffect) :
    byEffect op type (effectSchema.ident e) = true ↔ e.operationId = op ∧ e.effectType = type := by
  rw [byEffect, decide_eq_true_iff]
  show (e.operationId, e.effectType) = (op, type) ↔ _
  rw [Prod.mk.injEq]

theorem single_byEffect (op type : String) : effectSchema.Single (byEffect op type) := by
  intro a b hc ha hb
  simp only [byEffect, decide_eq_true_eq] at ha hb
  exact hc.2 (ha.trans hb.symm)

/-- Looking up an effect after its row, or another one, has been replaced. -/
theorem find_replace {T : EffectTable} {op type : String} {e e' : ExternalEffect}
    (hfind : T.find (byEffect op type) = some e)
    (hident : effectSchema.ident e' = effectSchema.ident e) (op' type' : String) :
    (T.modify (byEffect op type) fun _ ↦ e').find (byEffect op' type') =
      if op' = op ∧ type' = type then some e' else T.find (byEffect op' type') := by
  split
  · next h =>
    obtain ⟨rfl, rfl⟩ := h
    exact Table.find_modify_self hfind hident
  · next h =>
    rw [Table.find_modify]
    rcases hf : T.find (byEffect op' type') with - | r
    · rfl
    · have hr : r.operationId = op' ∧ r.effectType = type' :=
        (byEffect_ident op' type' r).1 (Table.sel_of_find hf)
      rw [Option.map_some, Table.modifyRow_of_neg]
      rw [← Bool.not_eq_true, byEffect_ident, hr.1, hr.2]
      exact h

/-! ### The two decisions -/

/-- The arguments of `begin_external_effect`. -/
structure BeginArgs where
  operationId : String
  effectType : String
  payloadHash : String
  providerIdempotencyKey : Option String
  deriving DecidableEq, Repr

/-- `EffectClaim`. -/
structure EffectClaim where
  shouldExecute : Bool
  effectId : Uuid
  status : EffectStatus
  attempts : ℕ
  providerIdempotencyKey : String
  deriving DecidableEq, Repr

/-- `provider_key_for_operation`. -/
def providerKeyForOperation (hexdigest : String → String) (operationId : String) : String :=
  "<" ++ hexdigest operationId ++ "@generic-app.invalid>"

/-- `provider_idempotency_key or provider_key_for_operation(operation_id)` -/
def effectKey (hexdigest : String → String) (args : BeginArgs) : String :=
  orStr args.providerIdempotencyKey (providerKeyForOperation hexdigest args.operationId)

theorem effectKey_ne_empty (hexdigest : String → String) (args : BeginArgs) :
    effectKey hexdigest args ≠ "" := by
  rw [effectKey, orStr]
  rcases hk : given args.providerIdempotencyKey with - | k
  · intro h
    have := congrArg String.length h
    simp [providerKeyForOperation] at this
  · exact (given_eq_some_iff.1 hk).2

/-- `_is_stale`. -/
def isStaleEffect (S : Settings) (e : ExternalEffect) (now : DateTime) : Bool :=
  e.startedAt ≤ now - timedelta S.externalEffectLeaseSeconds

/-- What `begin_external_effect` does with a row it has locked. -/
inductive BeginOutcome
  /-- It raises `ValueError`. -/
  | raises (message : String)
  /-- It answers without touching the row. -/
  | skips (claim : EffectClaim)
  /-- It commits the row and answers. -/
  | claims (e : ExternalEffect) (claim : EffectClaim)

/-- The row of a claim that takes an effect over. -/
def reclaimRow (key : String) (now : DateTime) (e : ExternalEffect) : ExternalEffect :=
  { e with
    status := .inFlight
    attempts := e.attempts + 1
    providerIdempotencyKey := some (orStr e.providerIdempotencyKey key)
    lastError := none
    startedAt := now
    completedAt := none
    updatedAt := now }

/-- The answer that reports a row as it is. -/
def EffectClaim.of (shouldExecute : Bool) (key : String) (e : ExternalEffect) : EffectClaim where
  shouldExecute := shouldExecute
  effectId := e.id
  status := e.status
  attempts := e.attempts
  providerIdempotencyKey := orStr e.providerIdempotencyKey key

/-- `begin_external_effect` on a row that exists. -/
def beginExisting (S : Settings) (key : String) (args : BeginArgs) (now : DateTime)
    (e : ExternalEffect) : BeginOutcome :=
  if e.payloadHash ≠ args.payloadHash then
    .raises "External effect payload does not match prior operation_id claim"
  else if e.status = .succeeded then
    .skips (.of false key e)
  else if e.status = .inFlight ∧ isStaleEffect S e now = false then
    .skips (.of false key e)
  else
    .claims (reclaimRow key now e) (.of true key (reclaimRow key now e))

/-- The row that `begin_external_effect` inserts when it finds none. -/
def beginNew (id : Uuid) (key : String) (args : BeginArgs) (now : DateTime) : ExternalEffect where
  id := id
  operationId := args.operationId
  effectType := args.effectType
  status := .inFlight
  payloadHash := args.payloadHash
  attempts := 1
  providerIdempotencyKey := some key
  lastError := none
  startedAt := now
  completedAt := none
  createdAt := now
  updatedAt := now

/-- `complete_external_effect` on a row that exists; `none` where it returns early. -/
def completeExisting (status : EffectStatus) (error : Option String) (now : DateTime)
    (e : ExternalEffect) : Option ExternalEffect :=
  if e.status = .succeeded then none
  else some { e with
    status := status
    lastError := (given error).map (slice 500)
    completedAt := some now
    updatedAt := now }

section Decisions

variable {S : Settings} {key : String} {args : BeginArgs} {now : DateTime} {e : ExternalEffect}

theorem beginExisting_of_mismatch (h : e.payloadHash ≠ args.payloadHash) :
    beginExisting S key args now e =
      .raises "External effect payload does not match prior operation_id claim" :=
  if_pos h

/-- **A claim that takes a row over**: same payload, neither succeeded nor freshly in flight. -/
theorem beginExisting_claims {e' : ExternalEffect} {claim : EffectClaim}
    (h : beginExisting S key args now e = .claims e' claim) :
    e.payloadHash = args.payloadHash ∧ e.status ≠ .succeeded ∧
      (e.status = .inFlight → isStaleEffect S e now = true) ∧ e' = reclaimRow key now e ∧
      claim = .of true key (reclaimRow key now e) := by
  rw [beginExisting] at h
  split at h
  · cases h
  · next hhash =>
    split at h
    · cases h
    · next hsucc =>
      split at h
      · cases h
      · next hfresh =>
        cases h
        refine ⟨not_not.1 hhash, hsucc, fun hin ↦ ?_, rfl, rfl⟩
        rw [← Bool.not_eq_false]
        exact fun hs ↦ hfresh ⟨hin, hs⟩

theorem completeExisting_eq_some {status : EffectStatus} {error : Option String}
    {e' : ExternalEffect} (h : completeExisting status error now e = some e') :
    e.status ≠ .succeeded ∧ e' = { e with
      status := status
      lastError := (given error).map (slice 500)
      completedAt := some now
      updatedAt := now } := by
  rw [completeExisting] at h
  split at h
  · cases h
  · next hne => exact ⟨hne, (Option.some.inj h).symm⟩

theorem orStr_of_given {s : String} (h : s ≠ "") (t : String) : orStr (some s) t = s := by
  rw [orStr, given_eq_some_iff.2 ⟨rfl, h⟩, Option.getD_some]

end Decisions

/-! ### The machine -/

/-- How `begin_external_effect` fails. -/
inductive BeginError
  | valueError (message : String)
  | integrityError
  deriving DecidableEq, Repr

/-- Where a call of `begin_external_effect` stands. -/
inductive BeginCall
  | idle
  /-- About to look for the row; the number is `insert_attempt`. -/
  | selecting (args : BeginArgs) (now : DateTime) (insertAttempt : ℕ)
  /-- Has found no row. -/
  | inserting (args : BeginArgs) (now : DateTime) (insertAttempt : ℕ)
  | answered (claim : EffectClaim)
  | raised (error : BeginError)
  deriving DecidableEq

/-- A claim answered with `should_execute=True`. -/
structure EffectGrant where
  args : BeginArgs
  claim : EffectClaim
  deriving DecidableEq

/-- The relation and the calls in progress. -/
structure Ledger where
  table : EffectTable
  calls : ℕ → BeginCall
  granted : List EffectGrant

/-- The steps of the calls, with the clock readings and the identifiers that they draw. -/
inductive LedgerAction
  | begin (c : ℕ) (args : BeginArgs) (now : DateTime)
  | select (c : ℕ)
  | insert (c : ℕ) (id : Uuid)
  | complete (op type : String) (status : EffectStatus) (error : Option String) (now : DateTime)

namespace Ledger

/-- An empty relation, and no calls. -/
def initial : Ledger where
  table := .empty
  calls _ := .idle
  granted := []

def setCall (s : Ledger) (c : ℕ) (b : BeginCall) : Ledger :=
  { s with calls := Function.update s.calls c b }

/-- `select(ExternalEffect)…with_for_update()` and, where there is a row, everything up to the
commit. -/
def select (S : Settings) (hexdigest : String → String) (s : Ledger) (c : ℕ) (args : BeginArgs)
    (now : DateTime) (insertAttempt : ℕ) : Ledger :=
  match s.table.find (byEffect args.operationId args.effectType) with
  | none => s.setCall c (.inserting args now insertAttempt)
  | some e =>
    match beginExisting S (effectKey hexdigest args) args now e with
    | .raises message => s.setCall c (.raised (.valueError message))
    | .skips claim => s.setCall c (.answered claim)
    | .claims e' claim =>
      { s.setCall c (.answered claim) with
        table := s.table.modify (byEffect args.operationId args.effectType) fun _ ↦ e'
        granted := s.granted ++ [⟨args, claim⟩] }

/-- `db.add(effect)` and `commit`, or the `IntegrityError` handler. -/
def insert (hexdigest : String → String) (s : Ledger) (c : ℕ) (args : BeginArgs) (now : DateTime)
    (insertAttempt : ℕ) (id : Uuid) : Ledger :=
  let e := beginNew id (effectKey hexdigest args) args now
  match s.table.insert e with
  | some T =>
    let claim := EffectClaim.of true (effectKey hexdigest args) e
    { s.setCall c (.answered claim) with table := T, granted := s.granted ++ [⟨args, claim⟩] }
  | none =>
    -- Another call has inserted the row in between. The handler looks again, once.
    if insertAttempt ≠ 0 then s.setCall c (.raised .integrityError)
    else s.setCall c (.selecting args now (insertAttempt + 1))

/-- `complete_external_effect`. A status other than the two final ones is refused before the row is
looked at, and a missing row is only logged. -/
def complete (s : Ledger) (op type : String) (status : EffectStatus) (error : Option String)
    (now : DateTime) : Ledger :=
  if status = .inFlight then s else
  match (s.table.find (byEffect op type)).bind (completeExisting status error now) with
  | none => s
  | some e => { s with table := s.table.modify (byEffect op type) fun _ ↦ e }

/-- The claims granted for an effect, in order. -/
def grantsOf (s : Ledger) (op type : String) : List EffectGrant :=
  s.granted.filter fun g ↦ g.args.operationId = op ∧ g.args.effectType = type

end Ledger

/-- One step of the calls. -/
def ledgerStep (S : Settings) (hexdigest : String → String) (s : Ledger) :
    LedgerAction → Option Ledger
  | .begin c args now =>
    match s.calls c with
    | .idle => some (s.setCall c (.selecting args now 0))
    | _ => none
  | .select c =>
    match s.calls c with
    | .selecting args now k => some (s.select S hexdigest c args now k)
    | _ => none
  | .insert c id =>
    match s.calls c with
    | .inserting args now k => some (s.insert hexdigest c args now k id)
    | _ => none
  | .complete op type status error now => some (s.complete op type status error now)

/-- The ledger, from an empty relation. -/
def ledgerMachine (S : Settings) (hexdigest : String → String) : Machine Ledger LedgerAction where
  init s := s = .initial
  step := ledgerStep S hexdigest

/-! ### What a step can do -/

/-- **The steps, one by one**, each with what it requires and the state it leaves. -/
inductive LedgerStep (S : Settings) (hexdigest : String → String) (s : Ledger) :
    LedgerAction → Ledger → Prop
  | begin {c : ℕ} {args : BeginArgs} {now : DateTime} (hcall : s.calls c = .idle) :
    LedgerStep S hexdigest s (.begin c args now) (s.setCall c (.selecting args now 0))
  | selectNone {c : ℕ} {args : BeginArgs} {now : DateTime} {k : ℕ}
    (hcall : s.calls c = .selecting args now k) :
    LedgerStep S hexdigest s (.select c) (s.setCall c (.inserting args now k))
  | selectRaise {c : ℕ} {args : BeginArgs} {now : DateTime} {k : ℕ} {message : String}
    (hcall : s.calls c = .selecting args now k) :
    LedgerStep S hexdigest s (.select c) (s.setCall c (.raised (.valueError message)))
  | selectSkip {c : ℕ} {args : BeginArgs} {now : DateTime} {k : ℕ} {claim : EffectClaim}
    (hcall : s.calls c = .selecting args now k) :
    LedgerStep S hexdigest s (.select c) (s.setCall c (.answered claim))
  | selectClaim {c : ℕ} {args : BeginArgs} {now : DateTime} {k : ℕ} {e e' : ExternalEffect}
    {claim : EffectClaim} (hcall : s.calls c = .selecting args now k)
    (hfind : s.table.find (byEffect args.operationId args.effectType) = some e)
    (hbegin : beginExisting S (effectKey hexdigest args) args now e = .claims e' claim) :
    LedgerStep S hexdigest s (.select c) { s.setCall c (.answered claim) with
      table := s.table.modify (byEffect args.operationId args.effectType) fun _ ↦ e'
      granted := s.granted ++ [⟨args, claim⟩] }
  | insertRow {c : ℕ} {args : BeginArgs} {now : DateTime} {k : ℕ} {id : Uuid} {T : EffectTable}
    (hcall : s.calls c = .inserting args now k)
    (hins : s.table.insert (beginNew id (effectKey hexdigest args) args now) = some T) :
    LedgerStep S hexdigest s (.insert c id)
      { s.setCall c (.answered (.of true (effectKey hexdigest args)
          (beginNew id (effectKey hexdigest args) args now))) with
        table := T
        granted := s.granted ++ [⟨args, .of true (effectKey hexdigest args)
          (beginNew id (effectKey hexdigest args) args now)⟩] }
  | insertConflict {c : ℕ} {args : BeginArgs} {now : DateTime} {k : ℕ} {id : Uuid} {b : BeginCall}
    (hcall : s.calls c = .inserting args now k) :
    LedgerStep S hexdigest s (.insert c id) (s.setCall c b)
  | completeNone (op type : String) (status : EffectStatus) (error : Option String)
    (now : DateTime) : LedgerStep S hexdigest s (.complete op type status error now) s
  | completeRow {op type : String} {status : EffectStatus} {error : Option String} {now : DateTime}
    {e e' : ExternalEffect} (hfind : s.table.find (byEffect op type) = some e)
    (hcomplete : completeExisting status error now e = some e') :
    LedgerStep S hexdigest s (.complete op type status error now)
      { s with table := s.table.modify (byEffect op type) fun _ ↦ e' }

/-- Every enabled step is one of those. -/
theorem ledgerStep_sound {S : Settings} {hexdigest : String → String} {s t : Ledger}
    {a : LedgerAction} (h : ledgerStep S hexdigest s a = some t) : LedgerStep S hexdigest s a t := by
  cases a with
  | begin c args now =>
    simp only [ledgerStep] at h
    split at h
    · next hcall =>
      obtain rfl := Option.some.inj h
      exact .begin hcall
    · cases h
  | select c =>
    simp only [ledgerStep] at h
    split at h
    · next args now k hcall =>
      obtain rfl := Option.some.inj h
      rw [Ledger.select]
      split
      · exact .selectNone hcall
      · next e hfind =>
        split
        · exact .selectRaise hcall
        · exact .selectSkip hcall
        · next e' claim hbegin => exact .selectClaim hcall hfind hbegin
    · cases h
  | insert c id =>
    simp only [ledgerStep] at h
    split at h
    · next args now k hcall =>
      obtain rfl := Option.some.inj h
      rw [Ledger.insert]
      split
      · next T hins => exact .insertRow hcall hins
      · split
        · exact .insertConflict hcall
        · exact .insertConflict hcall
    · cases h
  | complete op type status error now =>
    obtain rfl := Option.some.inj h
    rw [Ledger.complete]
    split
    · exact .completeNone ..
    · split
      · exact .completeNone ..
      · next e' hbind =>
        obtain ⟨e, hfind, hcomplete⟩ := Option.bind_eq_some_iff.1 hbind
        exact .completeRow hfind hcomplete

end GenericApp
