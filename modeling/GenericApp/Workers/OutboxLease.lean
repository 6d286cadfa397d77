import GenericApp.Foundation.Tickets
import GenericApp.Workers.Outbox

/-!
# The outbox lease

What the acknowledgement under a lease token buys, for any number of dispatchers and operators in any
order. The one assumption is that a lease token is never drawn twice for a row, `FreshTokens`, which is
what `uuid4` is used for.

Every claim counts, so `attempts` numbers the claims of a row. That number is not compared by anybody,
but by the freshness of tokens it says what the comparison of tokens says: a row under the token of a
claim has the `attempts` of that claim (`ClaimInv.token`), so a claim that is not the last one has lost
its token. It is also what bounds the calls of the broker. A claim is a ticket, numbered by `attempts`
and given out with a number no greater than `RAG_INGESTION_MAX_ATTEMPTS`; publishing uses it.

`outbox_laws` puts the five laws together.
-/

namespace GenericApp

open Machine Py

variable {S : Settings} {s t u : Outbox} {a : OutboxAction} {d : ℕ}

/-- No lease token is drawn for a row that a claim of the row had before. -/
def FreshTokens (s : Outbox) : OutboxAction → Prop
  | .claim _ _ _ _ token => ∀ c ∈ s.issued, token c.outboxId ≠ c.leaseToken
  | _ => True

instance (s : Outbox) (a : OutboxAction) : Decidable (FreshTokens s a) :=
  match a with
  | .claim _ _ _ _ token =>
    inferInstanceAs (Decidable (∀ c ∈ s.issued, token c.outboxId ≠ c.leaseToken))
  | .enqueue .. | .ingest .. | .publish .. | .ack .. | .crash .. | .checkCancel .. | .cancel .. =>
    isTrue trivial

/-! ### Rows -/

section Row

variable {row row' : BackgroundJobOutbox}

theorem attempts_claimEvent (now : DateTime) (token : Uuid) (row : BackgroundJobOutbox) :
    (claimEvent S now token row).attempts = row.attempts + 1 := by
  rw [claimEvent]
  split <;> rfl

/-- A claim leaves the row without a token, or under the one it drew. -/
theorem leaseToken_claimEvent (now : DateTime) (token : Uuid) (row : BackgroundJobOutbox) :
    (claimEvent S now token row).leaseToken = none ∨
      (claimEvent S now token row).leaseToken = some token := by
  rw [claimEvent]
  split
  · exact .inl rfl
  · exact .inr rfl

theorem attempts_ackEvent (claim : OutboxClaim) (error : Option String) (now : DateTime)
    (row : BackgroundJobOutbox) : (ackEvent claim error now row).attempts = row.attempts := by
  unfold ackEvent
  split
  · cases error <;> rfl
  · rfl

/-- An acknowledgement leaves the row as it is, or takes its token. -/
theorem leaseToken_ackEvent (claim : OutboxClaim) (error : Option String) (now : DateTime)
    (row : BackgroundJobOutbox) : (ackEvent claim error now row).leaseToken = none ∨
      (ackEvent claim error now row).leaseToken = row.leaseToken := by
  unfold ackEvent
  split
  · cases error <;> exact .inl rfl
  · exact .inr rfl

/-- An acknowledgement under another token, or of a row that is not being dispatched. -/
theorem ackEvent_of_not {claim : OutboxClaim} {error : Option String} {now : DateTime}
    (h : ¬(row.status = .dispatching ∧ row.leaseToken = some claim.leaseToken)) :
    ackEvent claim error now row = row := by
  unfold ackEvent
  exact if_neg h

theorem cancelEvent_frame (row : BackgroundJobOutbox) :
    (cancelEvent row).attempts = row.attempts ∧ (cancelEvent row).leaseToken = row.leaseToken := by
  rw [cancelEvent]
  split <;> exact ⟨rfl, rfl⟩

/-- No step takes an attempt back. -/
theorem RowStep.attempts_le (h : RowStep S s row a row') : row.attempts ≤ row'.attempts := by
  cases h with
  | same => exact le_rfl
  | claim => rw [attempts_claimEvent]; exact Nat.le_succ _
  | ack => rw [attempts_ackEvent]
  | cancel => rw [(cancelEvent_frame row).1]

/-- A row that can be claimed still has to be handed on. -/
theorem isOpen_of_claimable {now : DateTime} (h : claimable S now row = true) :
    row.status.isOpen = true := by
  simp only [claimable, decide_eq_true_eq] at h
  rcases h with ⟨hs, -⟩ | ⟨hs, -⟩ <;> simp [OutboxStatus.isOpen, hs]

/-- **A row that needs no handing on is left alone by everybody.** -/
theorem RowStep.eq_of_not_isOpen (h : RowStep S s row a row') (hclosed : row.status.isOpen = false) :
    row' = row := by
  cases h with
  | same => rfl
  | claim hclaimable =>
    rw [isOpen_of_claimable hclaimable] at hclosed
    cases hclosed
  | ack hphase hid =>
    refine ackEvent_of_not fun hack ↦ ?_
    simp [OutboxStatus.isOpen, hack.1] at hclosed
  | cancel =>
    rw [cancelEvent, if_neg (by simp [hclosed])]

/-- **A row that has to be handed on can be claimed, from some time on.** -/
theorem eventually_claimable (S : Settings) (hopen : row.status.isOpen = true) :
    ∃ t₀, ∀ now, t₀ ≤ now → claimable S now row = true := by
  rcases hs : row.status with - | - | - | - | -
  · refine ⟨row.availableAt, fun now hnow ↦ ?_⟩
    simp [claimable, hs, hnow]
  · refine ⟨row.lockedAt.getD 0 + timedelta S.outboxDispatchLeaseSeconds, fun now hnow ↦ ?_⟩
    have hlocked : row.lockedAt.all
        (fun t ↦ decide (t ≤ now - timedelta S.outboxDispatchLeaseSeconds)) = true := by
      rcases hl : row.lockedAt with - | locked
      · rfl
      · rw [hl, Option.getD_some] at hnow
        exact decide_eq_true (Int.le_sub_right_of_add_le hnow)
    simp only [claimable, hs, hlocked]
    rfl
  · simp [hs, OutboxStatus.isOpen] at hopen
  · simp [hs, OutboxStatus.isOpen] at hopen
  · simp [hs, OutboxStatus.isOpen] at hopen

end Row

/-! ### Claims and the rows they are on -/

/-- What holds of the claims committed so far. -/
structure ClaimInv (S : Settings) (s : Outbox) : Prop where
  /-- The row has counted the claim, and the claim is within the limit. -/
  counted : ∀ c ∈ s.issued, (1 ≤ c.attempts ∧ c.attempts ≤ S.ragIngestionMaxAttempts) ∧
    ∃ row, s.table.find (byOutboxId c.outboxId) = some row ∧ c.attempts ≤ row.attempts
  /-- A row under the token of a claim has not been claimed since. -/
  token : ∀ c ∈ s.issued, ∀ row, s.table.find (byOutboxId c.outboxId) = some row →
    row.leaseToken = some c.leaseToken → row.attempts = c.attempts

/-- The claims that a step commits, each with the row it is on before and after. -/
theorem issued_of_step (h : outboxStep S s a = some t) :
    t.issued = s.issued ∨
      ∃ d now batchSize locked token, a = .claim d now batchSize locked token ∧
        t.issued = s.issued ++
          (s.selected S now batchSize locked).filterMap fun row ↦ claimOf S now (token row.id) row := by
  cases a with
  | claim d now batchSize locked token =>
    simp only [outboxStep] at h
    split at h
    · obtain rfl := Option.some.inj h
      exact .inr ⟨d, now, batchSize, locked, token, rfl, rfl⟩
    · cases h
  | enqueue | ingest | crash =>
    obtain rfl := Option.some.inj h
    exact .inl rfl
  | publish | ack | checkCancel | cancel =>
    simp only [outboxStep] at h
    split at h
    · obtain rfl := Option.some.inj h
      exact .inl rfl
    · cases h

theorem claimOf_eq_some {now : DateTime} {token : Uuid} {row : BackgroundJobOutbox}
    {c : OutboxClaim} (h : claimOf S now token row = some c) :
    deadReason S now row = none ∧ c.outboxId = row.id ∧ c.attempts = row.attempts + 1 := by
  rw [claimOf] at h
  split at h
  · next hdead =>
    obtain rfl := Option.some.inj h
    exact ⟨hdead, rfl, rfl⟩
  · cases h

theorem le_max_of_deadReason {now : DateTime} {row : BackgroundJobOutbox}
    (h : deadReason S now row = none) : row.attempts + 1 ≤ S.ragIngestionMaxAttempts := by
  rw [deadReason] at h
  split at h
  · cases h
  · split at h
    · cases h
    · omega

/-- A claim that a batch commits is on a row that the batch selected, and has the row's next number. -/
theorem mem_newClaims {now : DateTime} {batchSize : ℕ} {locked : List Uuid} {token : Uuid → Uuid}
    {c : OutboxClaim} (hc : c ∈ (s.selected S now batchSize locked).filterMap
      fun row ↦ claimOf S now (token row.id) row) :
    ∃ row, row ∈ s.selected S now batchSize locked ∧
      s.table.find (byOutboxId c.outboxId) = some row ∧ c.attempts = row.attempts + 1 ∧
      c.attempts ≤ S.ragIngestionMaxAttempts := by
  obtain ⟨row, hrow, hclaim⟩ := List.mem_filterMap.1 hc
  obtain ⟨hdead, hid, hattempts⟩ := claimOf_eq_some hclaim
  have hfind : s.table.find (byOutboxId c.outboxId) = some row :=
    Table.find_eq_some_of_mem (single_byOutboxId _) (mem_selected hrow).1
      ((byOutboxId_ident _ _).2 hid.symm)
  exact ⟨row, hrow, hfind, hattempts, hattempts ▸ le_max_of_deadReason hdead⟩

theorem ClaimInv.step (hinv : ClaimInv S s) (hC : FreshTokens s a)
    (h : outboxStep S s a = some t) : ClaimInv S t := by
  -- A claim committed before: its row only moves on, and only to tokens that are not its own.
  have hold : ∀ c ∈ s.issued,
      ((1 ≤ c.attempts ∧ c.attempts ≤ S.ragIngestionMaxAttempts) ∧
        ∃ row, t.table.find (byOutboxId c.outboxId) = some row ∧ c.attempts ≤ row.attempts) ∧
      ∀ row, t.table.find (byOutboxId c.outboxId) = some row →
        row.leaseToken = some c.leaseToken → row.attempts = c.attempts := by
    intro c hc
    obtain ⟨hbound, row, hfind, hle⟩ := hinv.counted c hc
    obtain ⟨row', hfind', hident, hstep⟩ := step_row h hfind
    refine ⟨⟨hbound, row', hfind', hle.trans hstep.attempts_le⟩, fun r hr htoken ↦ ?_⟩
    obtain rfl : row' = r := Option.some.inj (hfind'.symm.trans hr)
    have hid : row.id = c.outboxId := (byOutboxId_ident _ _).1 (Table.sel_of_find hfind)
    cases hstep with
    | same => exact hinv.token c hc _ hfind htoken
    | claim hclaimable =>
      rcases leaseToken_claimEvent _ _ row with hnone | hsome
      · exact absurd (hnone.symm.trans htoken) (by simp)
      · have hdrawn := Option.some.inj (hsome.symm.trans htoken)
        rw [hid] at hdrawn
        exact absurd hdrawn (hC c hc)
    | @ack _ claim now error _ _ _ =>
      rw [attempts_ackEvent]
      rcases leaseToken_ackEvent claim error now row with hnone | hsame
      · exact absurd (hnone.symm.trans htoken) (by simp)
      · exact hinv.token c hc row hfind (hsame.symm.trans htoken)
    | cancel =>
      rw [(cancelEvent_frame row).1]
      exact hinv.token c hc row hfind ((cancelEvent_frame row).2.symm.trans htoken)
  rcases issued_of_step h with hissued | ⟨d, now, batchSize, locked, token, rfl, hissued⟩
  · rw [← hissued] at hold
    exact ⟨fun c hc ↦ (hold c hc).1, fun c hc ↦ (hold c hc).2⟩
  · -- A claim committed now: its row has just been given its number.
    have hnew : ∀ c ∈ (s.selected S now batchSize locked).filterMap
        (fun row ↦ claimOf S now (token row.id) row),
        (1 ≤ c.attempts ∧ c.attempts ≤ S.ragIngestionMaxAttempts) ∧
          ∃ row, t.table.find (byOutboxId c.outboxId) = some row ∧ row.attempts = c.attempts := by
      intro c hc
      obtain ⟨row, hrow, hfind, hattempts, hmax⟩ := mem_newClaims hc
      refine ⟨⟨by omega, hmax⟩, claimEvent S now (token row.id) row, ?_,
        (attempts_claimEvent _ _ row).trans hattempts.symm⟩
      simp only [outboxStep] at h
      split at h
      · obtain rfl := Option.some.inj h
        refine (Table.find_modify _ _ _ _).trans ?_
        rw [hfind, Option.map_some, modifyRow_claim hrow]
      · cases h
    refine ⟨fun c hc ↦ ?_, fun c hc row hrow htoken ↦ ?_⟩
    · rw [hissued] at hc
      rcases List.mem_append.1 hc with hc | hc
      · exact (hold c hc).1
      · obtain ⟨hbound, row, hrow, heq⟩ := hnew c hc
        exact ⟨hbound, row, hrow, heq.ge⟩
    · rw [hissued] at hc
      rcases List.mem_append.1 hc with hc | hc
      · exact (hold c hc).2 row hrow htoken
      · obtain ⟨-, row', hrow', heq⟩ := hnew c hc
        obtain rfl : row' = row := Option.some.inj (hrow'.symm.trans hrow)
        exact heq

/-! ### Calls of the broker -/

namespace Outbox

/-- Which call of the broker a claim is for: the row, and the number of the claim. -/
def callKey (c : OutboxClaim) : Uuid × ℕ := (c.outboxId, c.attempts)

/-- A claim that has not been published is a ticket for one call of the broker. -/
def tickets (s : Outbox) : Tickets ℕ (Uuid × ℕ) where
  held d := (s.phase d).unpublished.map callKey
  used := s.calls.map fun call ↦ callKey call.1

end Outbox

/-- The tickets when the claims of one dispatcher change. -/
theorem tickets_update (phase : DispatcherPhase) (h : t.phase = Function.update s.phase d phase) :
    t.tickets = ⟨Function.update s.tickets.held d (phase.unpublished.map Outbox.callKey),
      t.tickets.used⟩ := by
  have hheld : t.tickets.held =
      Function.update s.tickets.held d (phase.unpublished.map Outbox.callKey) := by
    funext d'
    show (t.phase d').unpublished.map Outbox.callKey = _
    rw [h]
    rcases eq_or_ne d' d with rfl | hne
    · rw [Function.update_self, Function.update_self]
    · rw [Function.update_of_ne hne, Function.update_of_ne hne]
      rfl
  rw [← hheld]

/-- What a step does with claims and calls of the broker. -/
inductive CallStep (S : Settings) (s t : Outbox) : Prop
  /-- A dispatcher commits a batch of claims. -/
  | claim (d : ℕ) (now : DateTime) (batchSize : ℕ) (locked : List Uuid) (token : Uuid → Uuid)
    (hphase : t.phase = Function.update s.phase d (.publishing
      ((s.selected S now batchSize locked).filterMap fun row ↦ claimOf S now (token row.id) row)))
    (hissued : t.issued = s.issued ++
      (s.selected S now batchSize locked).filterMap fun row ↦ claimOf S now (token row.id) row)
    (hcalls : t.calls = s.calls)
  /-- The broker answers about a claim. -/
  | publish (d : ℕ) (c : OutboxClaim) (now : DateTime) (error : Option String)
    (rest : List OutboxClaim) (hbefore : s.phase d = .publishing (c :: rest))
    (hphase : t.phase = Function.update s.phase d (.acking c now error rest))
    (hissued : t.issued = s.issued) (hcalls : t.calls = s.calls ++ [(c, error.isNone)])
  /-- A dispatcher is done with a claim, or with everything. -/
  | drop (d : ℕ) (rest : List OutboxClaim) (hrest : rest.Sublist (s.phase d).unpublished)
    (hphase : t.phase = Function.update s.phase d (.publishing rest))
    (hissued : t.issued = s.issued) (hcalls : t.calls = s.calls)
  /-- It is about something else. -/
  | keep (hphase : t.phase = s.phase) (hissued : t.issued = s.issued) (hcalls : t.calls = s.calls)

theorem callStep_of_step (h : outboxStep S s a = some t) : CallStep S s t := by
  cases a with
  | claim d now batchSize locked token =>
    simp only [outboxStep] at h
    split at h
    · obtain rfl := Option.some.inj h
      exact .claim d now batchSize locked token rfl rfl rfl
    · cases h
  | publish d now error =>
    simp only [outboxStep] at h
    split at h
    · next c rest hbefore =>
      obtain rfl := Option.some.inj h
      exact .publish d c now error rest hbefore rfl rfl rfl
    · cases h
  | ack d =>
    simp only [outboxStep] at h
    split at h
    · next c now error rest hbefore =>
      obtain rfl := Option.some.inj h
      refine .drop d rest ?_ rfl rfl rfl
      rw [hbefore]
      exact List.Sublist.refl _
    · cases h
  | crash d =>
    obtain rfl := Option.some.inj h
    exact .drop d [] (List.nil_sublist _) rfl rfl rfl
  | enqueue | ingest =>
    obtain rfl := Option.some.inj h
    exact .keep rfl rfl rfl
  | checkCancel | cancel =>
    simp only [outboxStep] at h
    split at h
    · obtain rfl := Option.some.inj h
      exact .keep rfl rfl rfl
    · cases h

/-- What holds of the dispatchers and of the calls they have made. -/
structure CallInv (s : Outbox) : Prop where
  /-- No claim is published twice. -/
  tickets : s.tickets.Inv
  held : ∀ d, ∀ c ∈ (s.phase d).unpublished, c ∈ s.issued
  called : ∀ call ∈ s.calls, call.1 ∈ s.issued
  /-- An acknowledgement says what the broker has answered. -/
  acking : ∀ d c now error rest, s.phase d = .acking c now error rest → (c, error.isNone) ∈ s.calls

/-- A batch of claims has fresh tickets. -/
theorem fresh_newClaims (hclaims : ClaimInv S s) (hinv : CallInv s) {now : DateTime}
    {batchSize : ℕ} {locked : List Uuid} {token : Uuid → Uuid} {k : Uuid × ℕ}
    (hk : k ∈ ((s.selected S now batchSize locked).filterMap
      fun row ↦ claimOf S now (token row.id) row).map Outbox.callKey) :
    k ∉ s.tickets.used ∧ ∀ d, k ∉ s.tickets.held d := by
  obtain ⟨c, hc, rfl⟩ := List.mem_map.1 hk
  obtain ⟨row, -, hfind, hattempts, -⟩ := mem_newClaims hc
  have hold : ∀ c' ∈ s.issued, Outbox.callKey c' ≠ Outbox.callKey c := by
    intro c' hc' heq
    obtain ⟨hid, hnumber⟩ := Prod.mk.inj heq
    obtain ⟨-, row', hfind', hle⟩ := hclaims.counted c' hc'
    rw [hid, hfind] at hfind'
    obtain rfl := Option.some.inj hfind'
    omega
  refine ⟨fun hmem ↦ ?_, fun d hmem ↦ ?_⟩
  · obtain ⟨call, hcall, heq⟩ := List.mem_map.1 hmem
    exact hold _ (hinv.called call hcall) heq
  · obtain ⟨c', hc', heq⟩ := List.mem_map.1 hmem
    exact hold _ (hinv.held d c' hc') heq

/-- A batch of claims has different tickets. -/
theorem nodup_newClaims (now : DateTime) (batchSize : ℕ) (locked : List Uuid)
    (token : Uuid → Uuid) :
    (((s.selected S now batchSize locked).filterMap
      fun row ↦ claimOf S now (token row.id) row).map Outbox.callKey).Nodup := by
  refine List.Pairwise.map (R := fun a b : OutboxClaim ↦ a.outboxId ≠ b.outboxId) _
    (fun a b hne heq ↦ hne (Prod.mk.inj heq).1) ?_
  refine (selected_pairwise now batchSize locked).filterMap _ fun row row' hne c hc c' hc' ↦ ?_
  rw [(claimOf_eq_some hc).2.1, (claimOf_eq_some hc').2.1]
  exact hne

theorem CallInv.step (hclaims : ClaimInv S s) (hinv : CallInv s)
    (h : outboxStep S s a = some t) : CallInv t := by
  -- The hand of `d` is replaced by one of committed claims, and it waits for no answer.
  have hhand : ∀ (d : ℕ) (claims : List OutboxClaim),
      t.phase = Function.update s.phase d (.publishing claims) → (∀ c ∈ s.issued, c ∈ t.issued) →
      (∀ c ∈ claims, c ∈ t.issued) → t.calls = s.calls → t.tickets.Inv → CallInv t := by
    intro d claims hphase hissued hclaims hcalls htickets
    refine ⟨htickets, fun d' c hc ↦ ?_, fun call hcall ↦ ?_, fun d' c now error rest hd' ↦ ?_⟩
    · rcases update_cases hphase d' with ⟨-, e⟩ | ⟨-, e⟩
      · rw [e] at hc
        exact hclaims c hc
      · rw [e] at hc
        exact hissued c (hinv.held d' c hc)
    · exact hissued _ (hinv.called call (hcalls ▸ hcall))
    · rcases update_cases hphase d' with ⟨-, e⟩ | ⟨-, e⟩
      · cases e.symm.trans hd'
      · exact hcalls ▸ hinv.acking d' c now error rest (e.symm.trans hd')
  have hused : t.calls = s.calls → t.tickets.used = s.tickets.used := fun hcalls ↦ by
    show t.calls.map _ = s.calls.map _
    rw [hcalls]
  cases callStep_of_step h with
  | claim d now batchSize locked token hphase hissued hcalls =>
    refine hhand d _ hphase (fun c hc ↦ ?_) (fun c hc ↦ ?_) hcalls ?_
    · exact hissued ▸ List.mem_append_left _ hc
    · exact hissued ▸ List.mem_append_right _ hc
    · -- The new claims carry the next number of their rows, which no claim has carried before.
      rw [tickets_update _ hphase, hused hcalls]
      exact hinv.tickets.give (nodup_newClaims now batchSize locked token)
        fun k hk ↦ fresh_newClaims hclaims hinv hk
  | publish d c now error rest hbefore hphase hissued hcalls =>
    have hmem : ∀ c' ∈ c :: rest, c' ∈ s.issued := fun c' hc' ↦ by
      refine hinv.held d c' ?_
      rw [hbefore]
      exact hc'
    refine ⟨?_, fun d' c' hc' ↦ ?_, fun call hcall ↦ ?_, fun d' c' now' error' rest' hd' ↦ ?_⟩
    · have hheld : s.tickets.held d = Outbox.callKey c :: rest.map Outbox.callKey := by
        show (s.phase d).unpublished.map _ = _
        rw [hbefore]
        rfl
      have hcalled : t.tickets.used = s.tickets.used ++ [Outbox.callKey c] := by
        show t.calls.map _ = s.calls.map _ ++ _
        rw [hcalls, List.map_append]
        rfl
      rw [tickets_update _ hphase, hcalled]
      exact hinv.tickets.use hheld
    · rw [hissued]
      rcases update_cases hphase d' with ⟨-, e⟩ | ⟨-, e⟩
      · rw [e] at hc'
        exact hmem c' (List.mem_cons_of_mem _ hc')
      · rw [e] at hc'
        exact hinv.held d' c' hc'
    · rw [hissued]
      rw [hcalls, List.mem_append, List.mem_singleton] at hcall
      rcases hcall with hcall | rfl
      · exact hinv.called call hcall
      · exact hmem c List.mem_cons_self
    · rw [hcalls, List.mem_append, List.mem_singleton]
      rcases update_cases hphase d' with ⟨-, e⟩ | ⟨-, e⟩
      · injection e.symm.trans hd' with hc hnow herror hrest
        exact .inr (by rw [hc, herror])
      · exact .inl (hinv.acking d' c' now' error' rest' (e.symm.trans hd'))
  | drop d rest hrest hphase hissued hcalls =>
    refine hhand d rest hphase (fun c hc ↦ hissued ▸ hc)
      (fun c hc ↦ hissued ▸ hinv.held d c (hrest.subset hc)) hcalls ?_
    rw [tickets_update _ hphase, hused hcalls]
    exact hinv.tickets.keep (hrest.map _)
  | keep hphase hissued hcalls =>
    have htickets : t.tickets = s.tickets := by
      rw [Outbox.tickets, Outbox.tickets, hphase, hcalls]
    exact ⟨htickets ▸ hinv.tickets, by rw [hphase, hissued]; exact hinv.held,
      by rw [hcalls, hissued]; exact hinv.called, by rw [hphase, hcalls]; exact hinv.acking⟩

/-- A row that was not there is new, and pending. -/
theorem enqueue_of_new {q : Uuid × Uuid → Bool} {row : BackgroundJobOutbox}
    (h : outboxStep S s a = some t) (hnone : s.table.find q = none)
    (hfind : t.table.find q = some row) :
    row.status = .pending ∧ ∃ id jobType payload now, a = .enqueue id row.jobId jobType payload now := by
  cases a with
  | enqueue id jobId jobType payload now =>
    obtain rfl := Option.some.inj h
    change (Option.getD _ _ : OutboxTable).find q = some row at hfind
    rcases hins : s.table.insert
      (newEvent id jobId jobType payload ((s.jobs jobId).bind (·.deadlineAt)) now) with - | T
    · rw [hins, Option.getD_none, hnone] at hfind
      cases hfind
    · rw [hins, Option.getD_some, Table.find_of_insert hins, hnone, Option.none_or] at hfind
      split at hfind
      · obtain rfl := Option.some.inj hfind
        exact ⟨rfl, id, jobType, payload, now, rfl⟩
      · cases hfind
  | ingest | crash =>
    obtain rfl := Option.some.inj h
    exact absurd (hnone.symm.trans hfind) (by simp)
  | claim | publish | ack | checkCancel | cancel =>
    simp only [outboxStep] at h
    split at h
    · obtain rfl := Option.some.inj h
      simp [Outbox.claim, Outbox.ack, Outbox.cancel, Table.find_modify, hnone] at hfind
    · cases h

/-- Only an acknowledgement that the broker has accepted makes a row dispatched. -/
theorem RowStep.of_dispatched {row row' : BackgroundJobOutbox} (h : RowStep S s row a row')
    (hstatus : row'.status = .dispatched) :
    row.status = .dispatched ∨
      ∃ d c now rest, s.phase d = .acking c now none rest ∧ row.id = c.outboxId := by
  cases h with
  | same => exact .inl hstatus
  | claim hclaimable =>
    rw [claimEvent] at hstatus
    split at hstatus <;> cases hstatus
  | @ack d c now error rest hphase hid =>
    unfold ackEvent at hstatus
    split at hstatus
    · rcases error with - | message
      · exact .inr ⟨d, c, now, rest, hphase, hid⟩
      · cases hstatus
    · exact .inl hstatus
  | cancel =>
    rw [cancelEvent] at hstatus
    split at hstatus
    · cases hstatus
    · exact .inl hstatus

/-- No call of the broker is taken back. -/
theorem calls_subset (h : outboxStep S s a = some t) : ∀ call ∈ s.calls, call ∈ t.calls := by
  intro call hcall
  cases callStep_of_step h with
  | publish d c now error rest hbefore hphase hissued hcalls =>
    exact hcalls ▸ List.mem_append_left _ hcall
  | claim d now batchSize locked token hphase hissued hcalls => exact hcalls ▸ hcall
  | drop d rest hrest hphase hissued hcalls => exact hcalls ▸ hcall
  | keep hphase hissued hcalls => exact hcalls ▸ hcall

/-- The broker has accepted the event of the row. -/
def Outbox.Accepted (s : Outbox) (id : Uuid) : Prop :=
  ∃ call ∈ s.calls, call.2 = true ∧ call.1.outboxId = id

/-- **What every run with fresh tokens keeps.** -/
structure OutboxInv (S : Settings) (s : Outbox) : Prop where
  claims : ClaimInv S s
  calls : CallInv s
  dispatched : ∀ id row, s.table.find (byOutboxId id) = some row → row.status = .dispatched →
    s.Accepted id

theorem OutboxInv.step (hinv : OutboxInv S s) (hC : FreshTokens s a)
    (h : outboxStep S s a = some t) : OutboxInv S t := by
  refine ⟨hinv.claims.step hC h, hinv.calls.step hinv.claims h, fun id row' hfind' hstatus ↦ ?_⟩
  rcases hfind : s.table.find (byOutboxId id) with - | row
  · -- A row that has only just been added is pending.
    rw [(enqueue_of_new h hfind hfind').1] at hstatus
    cases hstatus
  · obtain ⟨row'', hfind'', -, hstep⟩ := step_row h hfind
    obtain rfl : row'' = row' := Option.some.inj (hfind''.symm.trans hfind')
    have haccepted : s.Accepted id := by
      rcases hstep.of_dispatched hstatus with hbefore | ⟨d, c, now, rest, hphase, hid⟩
      · exact hinv.dispatched id row hfind hbefore
      · refine ⟨(c, true), hinv.calls.acking d c now none rest hphase, rfl, ?_⟩
        exact hid.symm.trans ((byOutboxId_ident _ _).1 (Table.sel_of_find hfind))
    obtain ⟨call, hcall, hok, hid⟩ := haccepted
    exact ⟨call, calls_subset h call hcall, hok, hid⟩

theorem OutboxInv.reachable (h : (outboxMachine S).Reachable FreshTokens s) : OutboxInv S s := by
  refine h.invariant (fun s₀ h₀ ↦ ?_) fun s a t hinv hC hstep ↦ hinv.step hC hstep
  obtain rfl : s₀ = .initial := h₀
  refine ⟨⟨fun c hc ↦ ?_, fun c hc ↦ ?_⟩, ⟨⟨List.nodup_nil, fun d ↦ List.nodup_nil, fun d k hk ↦ ?_,
    fun d d' _ k hk ↦ ?_⟩, fun d c hc ↦ ?_, fun c hc ↦ ?_, fun d c now error rest hd ↦ ?_⟩,
    fun id row hfind ↦ ?_⟩
  · cases hc
  · cases hc
  · cases hk
  · cases hk
  · cases hc
  · cases hc
  · cases hd
  · cases hfind

/-! ### The laws -/

/-- **A superseded acknowledgement changes nothing.** -/
theorem ack_of_superseded (hinv : OutboxInv S s) {c : OutboxClaim} {now : DateTime}
    {error : Option String} {rest : List OutboxClaim} {row : BackgroundJobOutbox}
    (hphase : s.phase d = .acking c now error rest)
    (hfind : s.table.find (byOutboxId c.outboxId) = some row) (hlt : c.attempts < row.attempts)
    (h : outboxStep S s (.ack d) = some t) : t.table = s.table ∧ t.jobs = s.jobs := by
  have hissued : c ∈ s.issued := hinv.calls.called _ (hinv.calls.acking d c now error rest hphase)
  simp only [outboxStep, hphase] at h
  obtain rfl := Option.some.inj h
  refine ⟨Table.modify_eq_self fun r hr hsel ↦ ackEvent_of_not fun hack ↦ ?_, rfl⟩
  obtain rfl : r = row := Option.some.inj
    ((Table.find_eq_some_of_mem (single_byOutboxId _) hr hsel).symm.trans hfind)
  exact hlt.ne' (hinv.claims.token c hissued r hfind hack.2)

/-- **A row that needs no handing on stays as it is.** -/
theorem find_of_later {id : Uuid} {row : BackgroundJobOutbox}
    (hfind : s.table.find (byOutboxId id) = some row) (hclosed : row.status.isOpen = false)
    (h : (outboxMachine S).Later anyStep s t) : t.table.find (byOutboxId id) = some row := by
  refine h.stable (P := fun u ↦ u.table.find (byOutboxId id) = some row)
    (fun u a v hu _ hstep ↦ ?_) hfind
  obtain ⟨row', hfind', -, hrow⟩ := step_row hstep hu
  rwa [hrow.eq_of_not_isOpen hclosed] at hfind'

/-- **A row is handed to the broker a bounded number of times.** -/
theorem length_calls_le (hinv : OutboxInv S s) (id : Uuid) :
    (s.calls.filter fun call ↦ call.1.outboxId = id).length ≤ S.ragIngestionMaxAttempts := by
  have honce : (s.calls.map fun call ↦ Outbox.callKey call.1).Nodup := hinv.calls.tickets.once
  have hnumbers : ((s.calls.filter fun call ↦ call.1.outboxId = id).map
      fun call ↦ call.1.attempts).Nodup := by
    rw [List.Nodup, List.pairwise_map] at honce ⊢
    refine (honce.sublist List.filter_sublist).imp_of_mem fun {a b} ha hb hne heq ↦ hne ?_
    have hida : a.1.outboxId = id := by simpa using (List.mem_filter.1 ha).2
    have hidb : b.1.outboxId = id := by simpa using (List.mem_filter.1 hb).2
    exact Prod.ext (hida.trans hidb.symm) heq
  refine Tickets.length_le_of_numbered hnumbers fun call hcall ↦ ?_
  exact (hinv.claims.counted _ (hinv.calls.called call (List.mem_of_mem_filter hcall))).1

/-- **The outbox lease protocol**, for any number of dispatchers and operators in any order, where
lease tokens are fresh.

* An acknowledgement changes nothing once the row has been claimed again.
* Rows that are `dispatched`, `dead_letter` or `cancelled` stay as they are.
* A row is handed to the broker at most `RAG_INGESTION_MAX_ATTEMPTS` times.
* Every other row can be claimed, from some time on.
* The broker has accepted the event of every `dispatched` row. -/
theorem outbox_laws (S : Settings) (s : Outbox) (h : (outboxMachine S).Reachable FreshTokens s) :
    (∀ d c now error rest row t, s.phase d = .acking c now error rest →
      s.table.find (byOutboxId c.outboxId) = some row → c.attempts < row.attempts →
      (outboxMachine S).step s (.ack d) = some t → t.table = s.table ∧ t.jobs = s.jobs) ∧
    (∀ id row t, s.table.find (byOutboxId id) = some row →
      row.status = .dispatched ∨ row.status = .deadLetter ∨ row.status = .cancelled →
      (outboxMachine S).Later anyStep s t → t.table.find (byOutboxId id) = some row) ∧
    (∀ id, (s.calls.filter fun call ↦ call.1.outboxId = id).length ≤ S.ragIngestionMaxAttempts) ∧
    (∀ id row, s.table.find (byOutboxId id) = some row →
      ¬(row.status = .dispatched ∨ row.status = .deadLetter ∨ row.status = .cancelled) →
      ∃ t₀, ∀ now, t₀ ≤ now → claimable S now row = true) ∧
    (∀ id row, s.table.find (byOutboxId id) = some row → row.status = .dispatched →
      s.Accepted id) := by
  have hinv := OutboxInv.reachable h
  refine ⟨fun d c now error rest row t hphase hfind hlt hstep ↦ ?_,
    fun id row t hfind hstatus hlater ↦ ?_, length_calls_le hinv, fun id row hfind hstatus ↦ ?_,
    hinv.dispatched⟩
  · exact ack_of_superseded hinv hphase hfind hlt hstep
  · refine find_of_later hfind ?_ hlater
    rcases hstatus with hs | hs | hs <;> rw [hs] <;> rfl
  · refine eventually_claimable S ?_
    rcases hs : row.status with - | - | - | - | -
    · rfl
    · rfl
    · exact absurd (.inl hs) hstatus
    · exact absurd (.inr (.inl hs)) hstatus
    · exact absurd (.inr (.inr hs)) hstatus

/-- An event that one dispatcher has published, and another one has claimed after the lease. -/
def reclaimedRun : List OutboxAction :=
  [.enqueue 1 2 "rag-indexing" [("document_id", "3"), ("user_id", "4"), ("job_id", "2")] 0,
    .claim 0 1 50 [] fun _ ↦ 11,
    .publish 0 2 none,
    .claim 1 600000001 50 [] fun _ ↦ 12]

theorem reclaimedRun_isSome :
    ((outboxMachine .default).run FreshTokens .initial reclaimedRun).isSome = true := by
  decide

theorem reclaimedRun_ack_isSome :
    ((outboxMachine .default).step (Option.get _ reclaimedRun_isSome) (.ack 0)).isSome = true := by
  decide

/-- The late acknowledgement of the first dispatcher changes nothing, and the broker has been called
within the limit. -/
theorem reclaimedRun_laws :
    (Option.get _ reclaimedRun_ack_isSome).table = (Option.get _ reclaimedRun_isSome).table ∧
    ((Option.get _ reclaimedRun_isSome).calls.filter fun call ↦ call.1.outboxId = 1).length ≤ 3 := by
  obtain ⟨hack, -, hcalls, -, -⟩ :=
    outbox_laws .default _ (reachable_run rfl reclaimedRun_isSome)
  have hlate := hack 0 _ _ _ _ _ _ rfl (Option.some_get (by decide)).symm (by decide)
    (Option.some_get reclaimedRun_ack_isSome).symm
  exact ⟨hlate.1, hcalls 1⟩

end GenericApp
