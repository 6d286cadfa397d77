import GenericApp.Foundation.Races
import GenericApp.Workers.ApplicationJob

/-!
# Billing

Plans and subscriptions, and the calls that write them: `select_plan_for_user`, `create_plan` and
`update_plan`. Several calls are under way at the same time, each in a session of its own. A statement
of one of them sees what has been committed, and its own writes; a row that a session has written is
locked until the session ends, and its writes are in the relation with the commit. A session writes the
columns it changed, into the row as it then is.

Plans have a primary key and a unique code. Subscriptions have a primary key and nothing else.
-/

namespace GenericApp

open Py

/-! ### Rows -/

/-- `SubscriptionPlan` -/
structure SubscriptionPlan where
  id : Uuid
  code : String
  name : String
  description : Option String
  priceCents : ℕ
  interval : String
  isActive : Bool
  isDefault : Bool
  features : List String
  deriving DecidableEq

/-- `UserSubscription` -/
structure UserSubscription where
  id : Uuid
  userId : String
  planId : Uuid
  status : String
  cancelAtPeriodEnd : Bool
  startedAt : DateTime
  currentPeriodEnd : Option DateTime
  deriving DecidableEq

/-- The constraints of `subscription_plans`. -/
def planSchema : Schema SubscriptionPlan (Uuid × String) where
  ident plan := (plan.id, plan.code)
  Compat a b := a.1 ≠ b.1 ∧ a.2 ≠ b.2

instance : DecidableRel planSchema.Compat := fun a b ↦
  inferInstanceAs (Decidable (a.1 ≠ b.1 ∧ a.2 ≠ b.2))

/-- The constraints of `user_subscriptions`. -/
def subscriptionSchema : Schema UserSubscription Uuid where
  ident subscription := subscription.id
  Compat a b := a ≠ b

instance : DecidableRel subscriptionSchema.Compat := fun a b ↦ inferInstanceAs (Decidable (a ≠ b))

/-- `UPDATE subscription_plans SET <changed columns> WHERE id = <pk>`. The code of a plan is not among
the fields that can be updated. -/
def SubscriptionPlan.writeBack (loaded modified current : SubscriptionPlan) : SubscriptionPlan :=
  { id := current.id
    code := current.code
    name := ApplicationJob.column loaded.name modified.name current.name
    description := ApplicationJob.column loaded.description modified.description current.description
    priceCents := ApplicationJob.column loaded.priceCents modified.priceCents current.priceCents
    interval := ApplicationJob.column loaded.interval modified.interval current.interval
    isActive := ApplicationJob.column loaded.isActive modified.isActive current.isActive
    isDefault := ApplicationJob.column loaded.isDefault modified.isDefault current.isDefault
    features := ApplicationJob.column loaded.features modified.features current.features }

/-- `UPDATE user_subscriptions SET <changed columns> WHERE id = <pk>`. -/
def UserSubscription.writeBack (loaded modified current : UserSubscription) : UserSubscription :=
  { id := current.id
    userId := current.userId
    planId := ApplicationJob.column loaded.planId modified.planId current.planId
    status := ApplicationJob.column loaded.status modified.status current.status
    cancelAtPeriodEnd := ApplicationJob.column loaded.cancelAtPeriodEnd modified.cancelAtPeriodEnd
      current.cancelAtPeriodEnd
    startedAt := current.startedAt
    currentPeriodEnd := ApplicationJob.column loaded.currentPeriodEnd modified.currentPeriodEnd
      current.currentPeriodEnd }

/-! ### What the calls compute -/

/-- `_calculate_period_end` -/
def calculatePeriodEnd (interval : String) (now : DateTime) : Option DateTime :=
  let normalized := lower interval
  let days (n : ℤ) := timedelta (n * 86400)
  if normalized = "month" then some (now + days 30)
  else if normalized = "year" then some (now + days 365)
  else if normalized = "week" then some (now + days 7)
  else if normalized = "lifetime" then none
  else some (now + days 30)

/-- The subscription that `select_plan_for_user` creates. -/
def newSubscription (id : Uuid) (userId : String) (plan : SubscriptionPlan) (now startedAt : DateTime) :
    UserSubscription where
  id := id
  userId := userId
  planId := plan.id
  status := "active"
  cancelAtPeriodEnd := false
  startedAt := startedAt
  currentPeriodEnd := calculatePeriodEnd plan.interval now

/-- What it makes of one that is there. -/
def changedSubscription (plan : SubscriptionPlan) (now : DateTime) (subscription : UserSubscription) :
    UserSubscription :=
  { subscription with
    planId := plan.id
    status := "active"
    cancelAtPeriodEnd := false
    currentPeriodEnd := calculatePeriodEnd plan.interval now }

/-- `SubscriptionPlanCreate` -/
structure PlanCreate where
  code : String
  name : String
  description : Option String
  priceCents : ℕ
  interval : String
  isDefault : Bool
  features : List String
  deriving DecidableEq

/-- The plan that `create_plan` creates. -/
def PlanCreate.plan (payload : PlanCreate) (id : Uuid) : SubscriptionPlan where
  id := id
  code := payload.code
  name := payload.name
  description := payload.description
  priceCents := payload.priceCents
  interval := payload.interval
  isActive := true
  isDefault := payload.isDefault
  features := payload.features

/-- A field of `SubscriptionPlanUpdate` that is set. A null in a column that has none is an error of the
database when the session is flushed. -/
inductive PlanUpdate
  | name (value : String)
  | description (value : Option String)
  | priceCents (value : ℕ)
  | interval (value : String)
  | isActive (value : Bool)
  | isDefault (value : Bool)
  | features (value : List String)
  deriving DecidableEq

/-- `setattr` -/
def PlanUpdate.set (plan : SubscriptionPlan) : PlanUpdate → SubscriptionPlan
  | name value => { plan with name := value }
  | description value => { plan with description := value }
  | priceCents value => { plan with priceCents := value }
  | interval value => { plan with interval := value }
  | isActive value => { plan with isActive := value }
  | isDefault value => { plan with isDefault := value }
  | features value => { plan with features := value }

/-! ### Calls under way -/

/-- The plan with some fields set. -/
def SubscriptionPlan.setAll (plan : SubscriptionPlan) (updates : List PlanUpdate) : SubscriptionPlan :=
  updates.foldl PlanUpdate.set plan

@[simp] theorem SubscriptionPlan.setAll_id (plan : SubscriptionPlan) (updates : List PlanUpdate) :
    (plan.setAll updates).id = plan.id := by
  induction updates generalizing plan with
  | nil => rfl
  | cons update updates ih =>
    show ((update.set plan).setAll updates).id = plan.id
    rw [ih]
    cases update <;> rfl

/-- What a call does to its own plan. -/
inductive PlanWrite
  | insert (plan : SubscriptionPlan)
  | update (loaded : SubscriptionPlan) (updates : List PlanUpdate)
  deriving DecidableEq

/-- The plan, as the session has it. -/
def PlanWrite.plan : PlanWrite → SubscriptionPlan
  | insert plan => plan
  | update loaded updates => loaded.setAll updates

/-- How far a call has come. -/
inductive BillingCall
  | idle
  /-- `select_plan_for_user` has read the plan. -/
  | planRead (userId : String) (plan : SubscriptionPlan)
  /-- It has read that the user has no subscription. -/
  | absent (userId : String) (plan : SubscriptionPlan) (now : DateTime)
  /-- The new subscription is inserted. -/
  | added (subscription : UserSubscription)
  /-- The subscription that was there has been changed in the session. -/
  | changed (loaded modified : UserSubscription)
  /-- `create_plan` has read that the code is free. -/
  | codeFree (payload : PlanCreate)
  /-- The plan is inserted, or changed in the session. -/
  | written (own : PlanWrite)
  /-- `_normalize_default_plan` has returned; these plans are no longer to be default ones. -/
  | normalized (own : PlanWrite) (others : List Uuid)
  /-- The session is flushed. -/
  | flushed (own : PlanWrite) (others : List Uuid)
  deriving DecidableEq

/-- The committed rows, the calls under way, and the plans that sessions have written, each with the
call whose session it was. -/
structure Billing where
  plans : Table planSchema
  subscriptions : Table subscriptionSchema
  calls : List BillingCall
  locks : List (ℕ × Uuid)

/-- The steps. -/
inductive BillingAction
  /-- A request comes in. -/
  | request
  | selectPlan (c : ℕ) (userId code : String)
  | readSubscription (c : ℕ) (now : DateTime)
  | insertSubscription (c : ℕ) (id : Uuid) (startedAt : DateTime)
  | commitSubscription (c : ℕ)
  | createPlan (c : ℕ) (payload : PlanCreate)
  | insertPlan (c : ℕ) (id : Uuid)
  | updatePlan (c : ℕ) (planId : Uuid) (updates : List PlanUpdate)
  | normalize (c : ℕ)
  | flushPlan (c : ℕ)
  | commitPlan (c : ℕ)
  /-- The call ends without a commit: an error, a refusal, a deadlock. -/
  | fail (c : ℕ)

namespace Billing

variable (s : Billing)

/-- The call goes on to this. -/
def goOn (c : ℕ) (call : BillingCall) : Billing := { s with calls := s.calls.set c call }

/-- Another session holds one of the rows. -/
def blocked (c : ℕ) (ids : List Uuid) : Bool := s.locks.any fun lock ↦ lock.1 ≠ c ∧ ids.contains lock.2

/-- The session takes the rows. -/
def lock (c : ℕ) (ids : List Uuid) : Billing := { s with locks := s.locks ++ ids.map fun id ↦ (c, id) }

/-- The session has ended. -/
def unlock (c : ℕ) : Billing := { s with locks := s.locks.filter fun lock ↦ lock.1 ≠ c }

/-- `get_plan_by_code` -/
def planByCode (code : String) : Option SubscriptionPlan := s.plans.find fun i ↦ i.2 = code

/-- `get_plan_by_id` -/
def planById (id : Uuid) : Option SubscriptionPlan := s.plans.find fun i ↦ i.1 = id

/-- `get_subscription_for_user` -/
def subscriptionForUser (userId : String) : Except String (Option UserSubscription) :=
  scalarOneOrNone (s.subscriptions.rows.filter fun subscription ↦ subscription.userId = userId)

/-- The ids of the plans that `_normalize_default_plan` changes. -/
def otherDefaults (own : SubscriptionPlan) : List Uuid :=
  (s.plans.rows.filter fun plan ↦ plan.id ≠ own.id ∧ plan.isDefault).map SubscriptionPlan.id

/-- The rows of plans that are written before the list of plans is read: an insert has been flushed, and
an update is flushed by the query that follows. -/
def ownLocks : PlanWrite → List Uuid
  | .insert plan => [plan.id]
  | .update loaded updates => if loaded.setAll updates = loaded then [] else [loaded.id]

/-- The plans when a call commits: its own is inserted or updated, and the others are no longer default
ones. `none` is the integrity error of an insert that collides. -/
def plansAfter (plans : Table planSchema) (own : PlanWrite) (others : List Uuid) :
    Option (Table planSchema) :=
  let plans := plans.modify (fun i ↦ others.contains i.1) fun plan ↦ { plan with isDefault := false }
  match own with
  | .insert plan => plans.insert plan
  | .update loaded updates =>
    some (plans.modify (fun i ↦ i.1 = loaded.id)
      (SubscriptionPlan.writeBack loaded (loaded.setAll updates)))

end Billing

open Billing in
/-- One step of a call. -/
def billingStep (s : Billing) : BillingAction → Option Billing
  | .request => some { s with calls := s.calls ++ [.idle] }
  | .selectPlan c userId code =>
    match s.calls[c]? with
    | some .idle =>
      match s.planByCode code with
      | some plan => if plan.isActive then some (s.goOn c (.planRead userId plan)) else none
      | none => none
    | _ => none
  | .readSubscription c now =>
    match s.calls[c]? with
    | some (.planRead userId plan) =>
      match s.subscriptionForUser userId with
      | .ok none => some (s.goOn c (.absent userId plan now))
      | .ok (some subscription) =>
        some (s.goOn c (.changed subscription (changedSubscription plan now subscription)))
      | .error _ => none
    | _ => none
  | .insertSubscription c id startedAt =>
    match s.calls[c]? with
    | some (.absent userId plan now) =>
      some (s.goOn c (.added (newSubscription id userId plan now startedAt)))
    | _ => none
  | .commitSubscription c =>
    match s.calls[c]? with
    | some (.added subscription) => (s.subscriptions.insert subscription).map fun subscriptions ↦
        { s.goOn c .idle with subscriptions := subscriptions }
    | some (.changed loaded modified) => some { s.goOn c .idle with
        subscriptions := s.subscriptions.modify (fun id ↦ id = loaded.id)
          (UserSubscription.writeBack loaded modified) }
    | _ => none
  | .createPlan c payload =>
    match s.calls[c]? with
    | some .idle => if (s.planByCode payload.code).isSome then none else some (s.goOn c (.codeFree payload))
    | _ => none
  | .insertPlan c id =>
    match s.calls[c]? with
    | some (.codeFree payload) =>
      if s.blocked c [id] then none
      else some ((s.goOn c (.written (.insert (payload.plan id)))).lock c [id])
    | _ => none
  | .updatePlan c planId updates =>
    match s.calls[c]? with
    | some .idle => (s.planById planId).map fun plan ↦
        s.goOn c (.written (.update plan updates))
    | _ => none
  | .normalize c =>
    match s.calls[c]? with
    | some (.written own) =>
      if own.plan.isDefault then
        if s.blocked c (ownLocks own) then none
        else some ((s.goOn c (.normalized own (s.otherDefaults own.plan))).lock c (ownLocks own))
      else some (s.goOn c (.normalized own []))
    | _ => none
  | .flushPlan c =>
    match s.calls[c]? with
    | some (.normalized own others) =>
      if s.blocked c (ownLocks own ++ others) then none
      else some ((s.goOn c (.flushed own others)).lock c (ownLocks own ++ others))
    | _ => none
  | .commitPlan c =>
    match s.calls[c]? with
    | some (.flushed own others) => (plansAfter s.plans own others).map fun plans ↦
        { (s.goOn c .idle).unlock c with plans := plans }
    | _ => none
  | .fail c => some ((s.goOn c .idle).unlock c)

/-- Billing, from any committed plans of which one at most is the default one, and from subscriptions of
which no user has more than one. -/
def billingMachine : Machine Billing BillingAction where
  init s := s.calls = [] ∧ s.locks = [] ∧
    (s.subscriptions.rows.map UserSubscription.userId).Nodup ∧
    (s.plans.rows.filter SubscriptionPlan.isDefault).length ≤ 1
  step := billingStep

end GenericApp
