import GenericApp.Platform.Billing
import Mathlib.Data.List.Nodup

/-!
# One subscription, one default plan

Nothing in the database keeps a user from having two subscriptions, or two plans from being the default
one. What keeps them from it is that a call looks before it writes: it inserts a subscription where it
found none, and takes the default mark from the plans that it finds marked. Looking is worth something
only if no other call that has looked in the same way is still to commit. `serial` says that of a step,
and while all steps are of that kind both laws hold (`billing_unique`). Two calls that overlap break each
of them (`billing_races`).
-/

namespace GenericApp

open Machine Py

/-! ### Calls that have looked -/

/-- The user for whom the call is going to commit a new subscription. -/
def BillingCall.adds : BillingCall → Option String
  | absent userId _ _ => some userId
  | added subscription => some subscription.userId
  | _ => none

/-- The plan that the call makes the default one, and those that it found to be. -/
def BillingCall.lists : BillingCall → Option (SubscriptionPlan × List Uuid)
  | normalized own others | flushed own others =>
    if own.plan.isDefault then some (own.plan, others) else none
  | _ => none

/-- The call is going to commit a new subscription for the user. -/
def Adds (userId : String) (call : BillingCall) : Prop := call.adds = some userId

/-- The call has listed the plans for a plan that is to be the default one. -/
def Lists (call : BillingCall) : Prop := call.lists ≠ none

instance (userId : String) : DecidablePred (Adds userId) := fun call ↦
  inferInstanceAs (Decidable (call.adds = some userId))

instance : DecidablePred Lists := fun call ↦ inferInstanceAs (Decidable (call.lists ≠ none))

/-- The users that have a subscription. -/
def Billing.subscribed (s : Billing) : List String := s.subscriptions.rows.map UserSubscription.userId

/-- The step is not the look of a call while another one that has looked is still to commit. -/
def serial (s : Billing) : BillingAction → Bool
  | .readSubscription c _ =>
    match s.calls[c]? with
    | some (.planRead userId _) =>
      decide (userId ∈ s.subscribed ∨ NobodyElse (Adds userId) s.calls c)
    | _ => true
  | .normalize c =>
    match s.calls[c]? with
    | some (.written own) => decide (own.plan.isDefault = true → NobodyElse Lists s.calls c)
    | _ => true
  | _ => true

/-- Every default plan is the own one of the call, or one that it found. -/
def Covers (plans : Table planSchema) (call : BillingCall) : Prop :=
  ∀ own others, call.lists = some (own, others) →
    ∀ plan ∈ plans.rows, plan.isDefault = true → plan.id = own.id ∨ plan.id ∈ others

/-- What every step of that kind keeps. -/
structure BillingInvariant (s : Billing) : Prop where
  subscribed : s.subscribed.Nodup
  addsAlone : ∀ userId, Alone (Adds userId) s.calls
  addsAbsent : ∀ (c : ℕ) call, s.calls[c]? = some call →
    ∀ userId, Adds userId call → userId ∉ s.subscribed
  oneDefault : ∀ plan ∈ s.plans.rows, ∀ other ∈ s.plans.rows,
    plan.isDefault = true → other.isDefault = true → plan = other
  listsAlone : Alone Lists s.calls
  listsCover : ∀ (c : ℕ) call, s.calls[c]? = some call → Covers s.plans call

/-! ### Moves of a call -/

section Moves

variable {s t : Billing} {c : ℕ} {call : BillingCall}

theorem Covers.of_not_lists {plans : Table planSchema} (h : ¬ Lists call) : Covers plans call :=
  fun _ _ hlists ↦ absurd (fun hnone ↦ nomatch hlists.symm.trans hnone) h

/-- A call goes on, and nothing is committed. -/
theorem BillingInvariant.move (h : BillingInvariant s) (hplans : t.plans = s.plans)
    (hsubscriptions : t.subscriptions = s.subscriptions) (hcalls : t.calls = s.calls.set c call)
    (hadds : ∀ userId, Adds userId call → (∃ old, s.calls[c]? = some old ∧ Adds userId old) ∨
      (NobodyElse (Adds userId) s.calls c ∧ userId ∉ s.subscribed))
    (hlists : Lists call → (∃ old, s.calls[c]? = some old ∧ old.lists = call.lists) ∨
      (NobodyElse Lists s.calls c ∧ Covers s.plans call)) : BillingInvariant t := by
  have hsubscribed : t.subscribed = s.subscribed := by
    rw [Billing.subscribed, hsubscriptions, Billing.subscribed]
  refine ⟨hsubscribed ▸ h.subscribed, fun userId ↦ ?_, ?_, hplans ▸ h.oneDefault, ?_, ?_⟩
  · rw [hcalls]
    exact (h.addsAlone userId).set fun hbusy ↦ (hadds userId hbusy).imp_right And.left
  · rw [hcalls, hsubscribed]
    refine forall_set (fun d old hd _ ↦ h.addsAbsent d old hd) fun userId hbusy ↦ ?_
    rcases hadds userId hbusy with ⟨old, hold, holdAdds⟩ | ⟨-, habsent⟩
    · exact h.addsAbsent c old hold userId holdAdds
    · exact habsent
  · rw [hcalls]
    refine h.listsAlone.set fun hbusy ↦ (hlists hbusy).imp ?_ And.left
    rintro ⟨old, hold, heq⟩
    exact ⟨old, hold, by rwa [Lists, heq]⟩
  · rw [hcalls, hplans]
    refine forall_set (fun d old hd _ ↦ h.listsCover d old hd) ?_
    by_cases hbusy : Lists call
    · rcases hlists hbusy with ⟨old, hold, heq⟩ | ⟨-, hcovers⟩
      · intro own others hown
        exact h.listsCover c old hold own others (heq.trans hown)
      · exact hcovers
    · exact .of_not_lists hbusy

/-- A call that has neither looked nor found goes on. -/
theorem BillingInvariant.plain (h : BillingInvariant s) (hplans : t.plans = s.plans)
    (hsubscriptions : t.subscriptions = s.subscriptions) (hcalls : t.calls = s.calls.set c call)
    (hadds : call.adds = none) (hlists : call.lists = none) : BillingInvariant t := by
  refine h.move hplans hsubscriptions hcalls (fun userId hbusy ↦ ?_) fun hbusy ↦ absurd hlists hbusy
  rw [Adds, hadds] at hbusy
  exact nomatch hbusy

end Moves

/-! ### Commits -/

section Commits

variable {s t : Billing} {c : ℕ}

/-- A new subscription is committed: the user had none, and nobody else is about to add one. -/
theorem BillingInvariant.add (h : BillingInvariant s) {subscription : UserSubscription}
    (hcall : s.calls[c]? = some (.added subscription)) {subscriptions : Table subscriptionSchema}
    (hinsert : s.subscriptions.insert subscription = some subscriptions) :
    BillingInvariant { s.goOn c .idle with subscriptions := subscriptions } := by
  have hrows := Table.rows_of_insert hinsert
  have hsubscribed : subscriptions.rows.map UserSubscription.userId =
      s.subscribed ++ [subscription.userId] := by
    rw [hrows, List.map_append]
    rfl
  have hbusy : Adds subscription.userId (.added subscription) := rfl
  have habsent := h.addsAbsent c _ hcall _ hbusy
  refine ⟨?_, fun userId ↦ (h.addsAlone userId).set fun hidle ↦ (nomatch hidle), ?_, h.oneDefault,
    h.listsAlone.set fun hidle ↦ absurd rfl hidle, ?_⟩
  · show (subscriptions.rows.map UserSubscription.userId).Nodup
    rw [hsubscribed]
    exact List.nodup_append.2 ⟨h.subscribed, List.nodup_singleton _, fun a ha b hb heq ↦
      habsent (List.mem_singleton.1 hb ▸ heq ▸ ha)⟩
  · refine forall_set (fun d call hd hne userId hadds hmem ↦ ?_) fun userId hidle ↦ nomatch hidle
    have hmem : userId ∈ subscriptions.rows.map UserSubscription.userId := hmem
    rw [hsubscribed] at hmem
    rcases List.mem_append.1 hmem with hold | hnew
    · exact h.addsAbsent d call hd userId hadds hold
    · -- The other call would be for the same user.
      obtain rfl := List.mem_singleton.1 hnew
      exact hne (h.addsAlone _ hd hcall hadds hbusy)
  · exact forall_set (fun d call hd _ ↦ h.listsCover d call hd) (.of_not_lists fun hidle ↦ hidle rfl)

/-- A subscription that was there is changed. -/
theorem BillingInvariant.change (h : BillingInvariant s) (loaded modified : UserSubscription) :
    BillingInvariant { s.goOn c .idle with
      subscriptions := s.subscriptions.modify (fun id ↦ id = loaded.id)
        (UserSubscription.writeBack loaded modified) } := by
  have hsubscribed : (s.subscriptions.modify (fun id ↦ id = loaded.id)
      (UserSubscription.writeBack loaded modified)).rows.map UserSubscription.userId = s.subscribed := by
    show (s.subscriptions.rows.map _).map UserSubscription.userId = _
    rw [List.map_map]
    refine List.map_congr_left fun row _ ↦ ?_
    show (Table.modifyRow _ _ _ row).userId = row.userId
    rw [Table.modifyRow]
    split <;> rfl
  have hidle : BillingInvariant (s.goOn c .idle) := h.plain rfl rfl rfl rfl rfl
  refine ⟨?_, hidle.addsAlone, fun d call hd userId hadds ↦ ?_, hidle.oneDefault, hidle.listsAlone,
    hidle.listsCover⟩
  · show (List.map UserSubscription.userId _).Nodup
    rw [hsubscribed]
    exact h.subscribed
  · show userId ∉ List.map UserSubscription.userId _
    rw [hsubscribed]
    exact hidle.addsAbsent d call hd userId hadds

/-- **A default plan after the commit of a call** is the plan of the call if that is to be the default
one, and otherwise was a default plan before. It is not one that the call takes the mark from. -/
theorem default_of_plansAfter {plans plans' : Table planSchema} {own : PlanWrite} {others : List Uuid}
    (h : Billing.plansAfter plans own others = some plans') {plan : SubscriptionPlan}
    (hplan : plan ∈ plans'.rows) (hdefault : plan.isDefault = true) :
    (own.plan.isDefault = true ∧ plan.id = own.plan.id) ∨
      ∃ old ∈ plans.rows, old.isDefault = true ∧ old.id = plan.id ∧ old.id ∉ others := by
  have hcleared : ∀ mid ∈ (plans.modify (fun i ↦ others.contains i.1)
      fun plan ↦ { plan with isDefault := false }).rows, mid.isDefault = true →
        ∃ old ∈ plans.rows, old.isDefault = true ∧ old.id = mid.id ∧ old.id ∉ others := by
    intro mid hmid hmark
    obtain ⟨old, hold, rfl⟩ := Table.mem_modify_iff.1 hmid
    by_cases hin : others.contains old.id = true
    · rw [Table.modifyRow_of_pos (S := planSchema) hin rfl] at hmark
      exact nomatch hmark
    · rw [Table.modifyRow_of_neg (S := planSchema) (Bool.not_eq_true _ ▸ hin)] at hmark ⊢
      exact ⟨old, hold, hmark, rfl, by simpa using hin⟩
  match own with
  | .insert new =>
    rw [Table.rows_of_insert h] at hplan
    rcases List.mem_append.1 hplan with hmid | hnew
    · exact .inr (hcleared plan hmid hdefault)
    · obtain rfl := List.mem_singleton.1 hnew
      exact .inl ⟨hdefault, rfl⟩
  | .update loaded updates =>
    obtain rfl := Option.some.inj h
    obtain ⟨mid, hmid, rfl⟩ := Table.mem_modify_iff.1 hplan
    by_cases hmine : mid.id = loaded.id
    · rw [Table.modifyRow_of_pos (S := planSchema) (decide_eq_true hmine) rfl] at hdefault ⊢
      -- The mark is written only if the session has changed it.
      change ApplicationJob.column _ _ _ = true at hdefault
      rw [ApplicationJob.column] at hdefault
      split at hdefault
      · exact .inr (hcleared mid hmid hdefault)
      · exact .inl ⟨hdefault, hmine.trans (loaded.setAll_id updates).symm⟩
    · rw [Table.modifyRow_of_neg (S := planSchema) (decide_eq_false hmine)] at hdefault ⊢
      exact .inr (hcleared mid hmid hdefault)

/-- A plan is found by its id. -/
theorem single_planId (id : Uuid) : planSchema.Single fun i ↦ i.1 = id := by
  intro a b hcompat ha hb
  exact hcompat.1 ((of_decide_eq_true ha).trans (of_decide_eq_true hb).symm)

theorem plan_eq_of_id {plans : Table planSchema} {plan other : SubscriptionPlan}
    (hplan : plan ∈ plans.rows) (hother : other ∈ plans.rows) (h : plan.id = other.id) : plan = other :=
  Table.eq_of_mem_of_sel (single_planId other.id) hplan hother (decide_eq_true h) (decide_eq_true rfl)

/-- The commit of a call that writes plans. -/
theorem BillingInvariant.commitPlan (h : BillingInvariant s) {own : PlanWrite} {others : List Uuid}
    (hcall : s.calls[c]? = some (.flushed own others)) {plans : Table planSchema}
    (hplans : Billing.plansAfter s.plans own others = some plans) :
    BillingInvariant { (s.goOn c .idle).unlock c with plans := plans } := by
  have hidle : BillingInvariant ((s.goOn c .idle).unlock c) := h.plain rfl rfl rfl rfl rfl
  -- The call covers the default plans, if its own is to be one.
  have hcovers : own.plan.isDefault = true → ∀ plan ∈ s.plans.rows, plan.isDefault = true →
      plan.id = own.plan.id ∨ plan.id ∈ others := fun hown ↦
    h.listsCover c _ hcall own.plan others (if_pos hown)
  rcases hown : own.plan.isDefault with - | -
  · -- No plan becomes a default one.
    have hfrom : ∀ plan ∈ plans.rows, plan.isDefault = true →
        ∃ old ∈ s.plans.rows, old.isDefault = true ∧ old.id = plan.id := by
      intro plan hplan hdefault
      rcases default_of_plansAfter hplans hplan hdefault with ⟨hmine, -⟩ | ⟨old, hold, hmark, hid, -⟩
      · exact nomatch hown.symm.trans hmine
      · exact ⟨old, hold, hmark, hid⟩
    refine ⟨hidle.subscribed, hidle.addsAlone, hidle.addsAbsent, ?_, hidle.listsAlone, ?_⟩
    · intro plan hplan other hother hdefault hotherDefault
      obtain ⟨old, hold, hmark, hid⟩ := hfrom plan hplan hdefault
      obtain ⟨old', hold', hmark', hid'⟩ := hfrom other hother hotherDefault
      have heq : old = old' := h.oneDefault old hold old' hold' hmark hmark'
      exact plan_eq_of_id hplan hother (hid.symm.trans (heq ▸ hid'))
    · intro d call hd own' others' hlists plan hplan hdefault
      obtain ⟨old, hold, hmark, hid⟩ := hfrom plan hplan hdefault
      rw [← hid]
      exact hidle.listsCover d call hd own' others' hlists old hold hmark
  · -- The own plan is the only default one, and nobody else has listed the plans.
    have hmine : ∀ plan ∈ plans.rows, plan.isDefault = true → plan.id = own.plan.id := by
      intro plan hplan hdefault
      rcases default_of_plansAfter hplans hplan hdefault with ⟨-, hid⟩ | ⟨old, hold, hmark, hid, hnot⟩
      · exact hid
      · exact hid ▸ (hcovers hown old hold hmark).resolve_right hnot
    refine ⟨hidle.subscribed, hidle.addsAlone, hidle.addsAbsent, ?_, hidle.listsAlone, ?_⟩
    · intro plan hplan other hother hdefault hotherDefault
      exact plan_eq_of_id hplan hother
        ((hmine plan hplan hdefault).trans (hmine other hother hotherDefault).symm)
    · have hlisted : Lists (.flushed own others) := by
        rw [Lists, BillingCall.lists, if_pos hown]
        exact Option.some_ne_none _
      refine forall_set (fun d call hd hne ↦ .of_not_lists fun hlists ↦ ?_)
        (.of_not_lists fun hidle ↦ hidle rfl)
      exact hne (h.listsAlone hd hcall hlists hlisted)

end Commits

/-! ### All steps -/

section Steps

variable {s t : Billing} {a : BillingAction}

/-- A call that finds no subscription looks alone. -/
theorem BillingInvariant.readSubscription (h : BillingInvariant s) {c : ℕ} {now : DateTime}
    (hserial : serial s (.readSubscription c now) = true)
    (hstep : billingStep s (.readSubscription c now) = some t) : BillingInvariant t := by
  simp only [billingStep] at hstep
  simp only [serial] at hserial
  split at hstep
  · next userId plan hcall =>
    rw [hcall] at hserial
    split at hstep
    · next hread =>
      obtain rfl := Option.some.inj hstep
      have habsent : userId ∉ s.subscribed := by
        intro hmem
        obtain ⟨row, hrow, huser⟩ := List.mem_map.1 hmem
        have hnone := List.filter_eq_nil_iff.1 (scalarOneOrNone_eq_none hread) row hrow
        exact hnone (decide_eq_true huser)
      refine h.move rfl rfl rfl (fun user hadds ↦ ?_) fun hlists ↦ absurd rfl hlists
      obtain rfl : userId = user := Option.some.inj hadds
      exact .inr ⟨(of_decide_eq_true hserial).resolve_left habsent, habsent⟩
    · obtain rfl := Option.some.inj hstep
      exact h.plain rfl rfl rfl rfl rfl
    · cases hstep
  · cases hstep

/-- A call whose plan is to be the default one lists alone. -/
theorem BillingInvariant.normalize (h : BillingInvariant s) {c : ℕ}
    (hserial : serial s (.normalize c) = true) (hstep : billingStep s (.normalize c) = some t) :
    BillingInvariant t := by
  simp only [billingStep] at hstep
  simp only [serial] at hserial
  split at hstep
  · next own hcall =>
    rw [hcall] at hserial
    split at hstep
    · next hown =>
      split at hstep
      · cases hstep
      · obtain rfl := Option.some.inj hstep
        refine h.move rfl rfl rfl (fun user hadds ↦ by cases hadds) fun _ ↦
          .inr ⟨of_decide_eq_true hserial hown, fun plan others hlists other hother hdefault ↦ ?_⟩
        rw [BillingCall.lists, if_pos hown] at hlists
        obtain ⟨rfl, rfl⟩ := Prod.mk.inj (Option.some.inj hlists)
        by_cases hid : other.id = own.plan.id
        · exact .inl hid
        · exact .inr (List.mem_map_of_mem (List.mem_filter.2 ⟨hother, decide_eq_true ⟨hid, hdefault⟩⟩))
    · next hown =>
      obtain rfl := Option.some.inj hstep
      exact h.plain rfl rfl rfl rfl (if_neg hown)
  · cases hstep

/-- A request comes in. -/
theorem BillingInvariant.request (h : BillingInvariant s) :
    BillingInvariant { s with calls := s.calls ++ [.idle] } := by
  refine ⟨h.subscribed, fun userId ↦ (h.addsAlone userId).append (fun hidle ↦ nomatch hidle), ?_,
    h.oneDefault, h.listsAlone.append (fun hidle ↦ hidle rfl), ?_⟩
  · intro d call hd userId hadds
    rcases slot_of_append hd with ⟨-, rfl⟩ | ⟨-, hd⟩
    · exact nomatch hadds
    · exact h.addsAbsent d call hd userId hadds
  · intro d call hd
    rcases slot_of_append hd with ⟨-, rfl⟩ | ⟨-, hd⟩
    · exact .of_not_lists fun hidle ↦ hidle rfl
    · exact h.listsCover d call hd

theorem BillingInvariant.step (h : BillingInvariant s) (hserial : serial s a = true)
    (hstep : billingStep s a = some t) : BillingInvariant t := by
  cases a with
  | readSubscription c now => exact h.readSubscription hserial hstep
  | normalize c => exact h.normalize hserial hstep
  | request =>
    obtain rfl := Option.some.inj hstep
    exact h.request
  | selectPlan c userId code =>
    simp only [billingStep] at hstep
    split at hstep
    · split at hstep
      · split at hstep
        · exact Option.some.inj hstep ▸ h.plain rfl rfl rfl rfl rfl
        · exact nomatch hstep
      · exact nomatch hstep
    · exact nomatch hstep
  | insertSubscription c id startedAt =>
    simp only [billingStep] at hstep
    split at hstep
    · next userId plan now hcall =>
      refine Option.some.inj hstep ▸ h.move rfl rfl rfl (fun user hadds ↦ ?_)
        fun hlists ↦ absurd rfl hlists
      exact .inl ⟨_, hcall, hadds⟩
    · exact nomatch hstep
  | commitSubscription c =>
    simp only [billingStep] at hstep
    split at hstep
    · next subscription hcall =>
      obtain ⟨subscriptions, hinsert, rfl⟩ := Option.map_eq_some_iff.1 hstep
      exact h.add hcall hinsert
    · next loaded modified hcall => exact Option.some.inj hstep ▸ h.change loaded modified
    · exact nomatch hstep
  | createPlan c payload =>
    simp only [billingStep] at hstep
    split at hstep
    · split at hstep
      · exact nomatch hstep
      · exact Option.some.inj hstep ▸ h.plain rfl rfl rfl rfl rfl
    · exact nomatch hstep
  | insertPlan c id =>
    simp only [billingStep] at hstep
    split at hstep
    · split at hstep
      · exact nomatch hstep
      · exact Option.some.inj hstep ▸ h.plain rfl rfl rfl rfl rfl
    · exact nomatch hstep
  | updatePlan c planId updates =>
    simp only [billingStep] at hstep
    split at hstep
    · obtain ⟨plan, -, rfl⟩ := Option.map_eq_some_iff.1 hstep
      exact h.plain rfl rfl rfl rfl rfl
    · exact nomatch hstep
  | flushPlan c =>
    simp only [billingStep] at hstep
    split at hstep
    · next own others hcall =>
      split at hstep
      · exact nomatch hstep
      · exact Option.some.inj hstep ▸ h.move rfl rfl rfl (fun user hadds ↦ nomatch hadds) fun _ ↦
          .inl ⟨_, hcall, rfl⟩
    · exact nomatch hstep
  | commitPlan c =>
    simp only [billingStep] at hstep
    split at hstep
    · next own others hcall =>
      obtain ⟨plans, hplans, rfl⟩ := Option.map_eq_some_iff.1 hstep
      exact h.commitPlan hcall hplans
    · exact nomatch hstep
  | fail c => exact Option.some.inj hstep ▸ h.plain rfl rfl rfl rfl rfl

/-- Rows of which any two are the same are one row at most. -/
theorem length_filter_default_le_one {plans : Table planSchema} :
    (plans.rows.filter SubscriptionPlan.isDefault).length ≤ 1 ↔
      ∀ plan ∈ plans.rows, ∀ other ∈ plans.rows,
        plan.isDefault = true → other.isDefault = true → plan = other := by
  have hcompat := plans.compat.sublist (List.filter_sublist (p := SubscriptionPlan.isDefault))
  have hmem : ∀ plan, plan ∈ plans.rows.filter SubscriptionPlan.isDefault ↔
      plan ∈ plans.rows ∧ plan.isDefault = true := fun plan ↦ List.mem_filter
  constructor
  · intro hlength plan hplan other hother hdefault hotherDefault
    have h := (hmem plan).2 ⟨hplan, hdefault⟩
    have h' := (hmem other).2 ⟨hother, hotherDefault⟩
    obtain ⟨only, honly⟩ := List.length_eq_one_iff.1
      (Nat.le_antisymm hlength (List.length_pos_of_mem h))
    rw [honly, List.mem_singleton] at h h'
    exact h.trans h'.symm
  · intro hsame
    match hrows : plans.rows.filter SubscriptionPlan.isDefault with
    | [] => exact Nat.zero_le 1
    | [_] => exact Nat.le_refl 1
    | plan :: other :: rest =>
      rw [hrows] at hcompat hmem
      have h := (hmem plan).1 List.mem_cons_self
      have h' := (hmem other).1 (List.mem_cons_of_mem _ List.mem_cons_self)
      have hne := (List.pairwise_cons.1 hcompat).1 other List.mem_cons_self
      exact absurd (congrArg SubscriptionPlan.id (hsame plan h.1 other h'.1 h.2 h'.2)) hne.1

end Steps

/-- **One subscription, one default plan.** If no call finds that the user has no subscription, and
none lists the plans for a default one, while another call that has done the same has neither committed
nor failed, then no user ever has two subscriptions, so that looking for one never raises, and there are
never two default plans. -/
theorem billing_unique {s : Billing}
    (h : billingMachine.Reachable (fun s a ↦ serial s a = true) s) :
    (∀ userId, (s.subscriptions.rows.filter fun row ↦ row.userId = userId).length ≤ 1) ∧
      (∀ userId, ∃ found, s.subscriptionForUser userId = .ok found) ∧
      (s.plans.rows.filter SubscriptionPlan.isDefault).length ≤ 1 := by
  have hinv : BillingInvariant s := by
    refine h.invariant (fun s hs ↦ ?_) fun s a t hs hserial hstep ↦ hs.step hserial hstep
    obtain ⟨hcalls, -, hsubscribed, hdefault⟩ := hs
    refine ⟨hsubscribed, fun userId ↦ hcalls ▸ alone_nil, fun c call hc ↦ ?_,
      length_filter_default_le_one.1 hdefault, hcalls ▸ alone_nil, fun c call hc ↦ ?_⟩
    · rw [hcalls] at hc
      exact nomatch hc
    · rw [hcalls] at hc
      exact nomatch hc
  have hone : ∀ userId, (s.subscriptions.rows.filter fun row ↦ row.userId = userId).length ≤ 1 := by
    intro userId
    have hcount := List.nodup_iff_count_le_one.1 hinv.subscribed userId
    rw [Billing.subscribed, List.count, List.countP_map, List.countP_eq_length_filter] at hcount
    exact hcount
  exact ⟨hone, fun userId ↦ ⟨_, scalarOneOrNone_eq_ok (hone userId)⟩,
    length_filter_default_le_one.2 hinv.oneDefault⟩

/-- A plan that is active. -/
def basicPlan (isDefault : Bool) : PlanCreate := ⟨"basic", "Basic", none, 0, "month", isDefault, []⟩

/-- No user has a subscription, and there are no plans. -/
def noBilling : Billing := ⟨Table.empty, Table.empty, [], []⟩

/-- A plan is created by one call. -/
def createBasic (c : ℕ) : List BillingAction :=
  [.request, .createPlan c (basicPlan false), .insertPlan c 1, .normalize c, .flushPlan c, .commitPlan c]

/-- A user selects it with two calls, one after the other has committed or, with `overlap`, both before
the first commit. -/
def selectTwice (overlap : Bool) : List BillingAction :=
  createBasic 0 ++ [.request, .request, .selectPlan 1 "u" "basic", .selectPlan 2 "u" "basic",
    .readSubscription 1 0] ++
  (if overlap then [.readSubscription 2 0, .insertSubscription 1 1 0, .commitSubscription 1,
    .insertSubscription 2 2 0, .commitSubscription 2]
  else [.insertSubscription 1 1 0, .commitSubscription 1, .readSubscription 2 0, .commitSubscription 2])

/-- Two default plans are created by calls that overlap. -/
def createDefaults : List BillingAction :=
  [.request, .request, .createPlan 0 (basicPlan true),
    .createPlan 1 { basicPlan true with code := "other" }, .insertPlan 0 1, .insertPlan 1 2,
    .normalize 0, .normalize 1, .flushPlan 0, .flushPlan 1, .commitPlan 0, .commitPlan 1]

theorem init_noBilling : billingMachine.init noBilling := by
  refine ⟨rfl, rfl, List.nodup_nil, Nat.zero_le 1⟩

theorem billing_unique_selectTwice : ∃ s, billingMachine.Reachable (fun s a ↦ serial s a = true) s ∧
    (s.subscriptions.rows.filter fun row ↦ row.userId = "u").length = 1 ∧
    (s.plans.rows.filter SubscriptionPlan.isDefault).length ≤ 1 :=
  ⟨(billingMachine.run (fun s a ↦ serial s a = true) noBilling (selectTwice false)).get
      (by decide +kernel), reachable_run init_noBilling _, by decide +kernel,
    (billing_unique (reachable_run init_noBilling _)).2.2⟩

/-- **Calls that overlap break both laws**: two calls give a user two subscriptions, after which looking
for one raises, and two calls make two default plans. -/
theorem billing_races :
    (∃ s, billingMachine.Reachable anyStep s ∧
      (s.subscriptions.rows.filter fun row ↦ row.userId = "u").length = 2 ∧
      (s.subscriptionForUser "u").toOption = none) ∧
    ∃ s, billingMachine.Reachable anyStep s ∧
      (s.plans.rows.filter SubscriptionPlan.isDefault).length = 2 :=
  ⟨⟨(billingMachine.run anyStep noBilling (selectTwice true)).get (by decide +kernel),
      reachable_run init_noBilling _, by decide +kernel, by decide +kernel⟩,
    (billingMachine.run anyStep noBilling createDefaults).get (by decide +kernel),
    reachable_run init_noBilling _, by decide +kernel⟩

end GenericApp
