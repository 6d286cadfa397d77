import GenericApp.Workers.EffectLedger

/-!
# What the ledger guarantees

Over every order of claims, insert races and completions of any number of effects:

* `LedgerInv`: a row has counted exactly the claims granted for its effect, and all of them carried
  its payload hash and its provider key;
* `SucceededKept`: a row that has succeeded is never written again and no claim on it is granted;
* `ledger_laws`: these, with the uniqueness of the row and the refusal of another payload.

The provider key is what makes a repeated send harmless, and it stays the same because the row keeps
the first one: `reclaimRow` falls back to the caller's key only where the row has none, and
`LedgerInv.keyed` says that it always has one.
-/

namespace GenericApp

open Machine Py

variable {S : Settings} {hexdigest : String → String} {s t u : Ledger} {a : LedgerAction}

/-! ### The rows and the claims granted -/

/-- A grant carries the hash and the key of a row. -/
def Carries (g : EffectGrant) (e : ExternalEffect) : Prop :=
  g.args.payloadHash = e.payloadHash ∧
    e.providerIdempotencyKey = some g.claim.providerIdempotencyKey

/-- What holds of the rows and the claims granted so far. -/
structure LedgerInv (s : Ledger) : Prop where
  /-- Every row has a provider key. -/
  keyed : ∀ op type e, s.table.find (byEffect op type) = some e →
    ∃ k, e.providerIdempotencyKey = some k ∧ k ≠ ""
  /-- A row has counted the claims granted for its effect. -/
  counted : ∀ op type e, s.table.find (byEffect op type) = some e →
    e.attempts = (s.grantsOf op type).length
  /-- Where there is no row, no claim has been granted. -/
  missing : ∀ op type, s.table.find (byEffect op type) = none → s.grantsOf op type = []
  /-- A granted claim carried the hash and the key of the row. -/
  same : ∀ g ∈ s.granted, ∃ e,
    s.table.find (byEffect g.args.operationId g.args.effectType) = some e ∧ Carries g e

/-- The claims granted for an effect, after more were granted for one effect. -/
theorem grantsOf_append {new : List EffectGrant} {op type : String}
    (h : t.granted = s.granted ++ new)
    (hnew : ∀ g ∈ new, g.args.operationId = op ∧ g.args.effectType = type) (op' type' : String) :
    t.grantsOf op' type' =
      s.grantsOf op' type' ++ if op' = op ∧ type' = type then new else [] := by
  rw [Ledger.grantsOf, h, List.filter_append, Ledger.grantsOf]
  congr 1
  split
  · next hsame =>
    refine List.filter_eq_self.2 fun g hg ↦ decide_eq_true ?_
    rw [hsame.1, hsame.2]
    exact hnew g hg
  · next hne =>
    refine List.filter_eq_nil_iff.2 fun g hg hsame ↦ hne ?_
    obtain ⟨hop, htype⟩ := of_decide_eq_true hsame
    exact ⟨hop.symm.trans (hnew g hg).1, htype.symm.trans (hnew g hg).2⟩

theorem grantsOf_of_ne {g : EffectGrant} {op type : String} (h : t.granted = s.granted ++ [g])
    (hne : ¬(op = g.args.operationId ∧ type = g.args.effectType)) :
    t.grantsOf op type = s.grantsOf op type := by
  have hnew : ∀ g' ∈ [g], g'.args.operationId = g.args.operationId ∧
      g'.args.effectType = g.args.effectType := by
    simp
  rw [grantsOf_append h hnew, if_neg hne, List.append_nil]

/-- A step that replaces one row, keeping its hash and its key and counting the claims it grants on
it. A claim that takes over is one, and so is a completion, which grants none. -/
theorem LedgerInv.replace {op type : String} {e e' : ExternalEffect} {new : List EffectGrant}
    (hinv : LedgerInv s) (hfind : s.table.find (byEffect op type) = some e)
    (htable : t.table = s.table.modify (byEffect op type) fun _ ↦ e')
    (hgranted : t.granted = s.granted ++ new)
    (hident : effectSchema.ident e' = effectSchema.ident e)
    (hhash : e'.payloadHash = e.payloadHash)
    (hkey : e'.providerIdempotencyKey = e.providerIdempotencyKey)
    (hcount : e'.attempts = e.attempts + new.length)
    (hnew : ∀ g ∈ new, (g.args.operationId = op ∧ g.args.effectType = type) ∧ Carries g e) :
    LedgerInv t := by
  have hlook := fun op' type' ↦ find_replace hfind hident op' type'
  have hgrants := grantsOf_append hgranted fun g hg ↦ (hnew g hg).1
  refine ⟨fun op' type' r hr ↦ ?_, fun op' type' r hr ↦ ?_, fun op' type' hr ↦ ?_, fun g hg ↦ ?_⟩
  · rw [htable, hlook] at hr
    split at hr
    · obtain rfl := Option.some.inj hr
      rw [hkey]
      exact hinv.keyed op type e hfind
    · exact hinv.keyed op' type' r hr
  · rw [htable, hlook] at hr
    rw [hgrants]
    split at hr
    · next h =>
      obtain rfl := Option.some.inj hr
      rw [if_pos h, h.1, h.2, List.length_append, ← hinv.counted op type e hfind]
      exact hcount
    · next h =>
      rw [if_neg h, List.append_nil]
      exact hinv.counted op' type' r hr
  · rw [htable, hlook] at hr
    rw [hgrants]
    split at hr
    · cases hr
    · next h =>
      rw [if_neg h, List.append_nil]
      exact hinv.missing op' type' hr
  · rw [htable, hlook]
    rw [hgranted] at hg
    rcases List.mem_append.1 hg with hg | hg
    · obtain ⟨r, hr, hh, hk⟩ := hinv.same g hg
      split
      · next h =>
        rw [h.1, h.2, hfind] at hr
        obtain rfl := Option.some.inj hr
        exact ⟨e', rfl, hh.trans hhash.symm, hkey.trans hk⟩
      · exact ⟨r, hr, hh, hk⟩
    · obtain ⟨hsame, hh, hk⟩ := hnew g hg
      rw [if_pos hsame]
      exact ⟨e', rfl, hh.trans hhash.symm, hkey.trans hk⟩

/-- An accepted insert finds no row of its effect. -/
theorem find_byEffect_before_insert {T T' : EffectTable} {e : ExternalEffect}
    (h : T.insert e = some T') : T.find (byEffect e.operationId e.effectType) = none := by
  rw [Table.find_eq_none_iff]
  intro r hr
  rw [← Bool.not_eq_true, byEffect_ident]
  intro hr'
  refine (Table.compat_of_insert h hr).2 ?_
  show (_, _) = (_, _)
  rw [hr'.1, hr'.2]

theorem find_byEffect_of_insert {T T' : EffectTable} {e : ExternalEffect}
    (h : T.insert e = some T') (op type : String) : T'.find (byEffect op type) =
      if op = e.operationId ∧ type = e.effectType then some e else T.find (byEffect op type) := by
  rw [Table.find_of_insert h]
  by_cases hsame : op = e.operationId ∧ type = e.effectType
  · rw [if_pos hsame, hsame.1, hsame.2, find_byEffect_before_insert h,
      if_pos ((byEffect_ident _ _ e).2 ⟨rfl, rfl⟩)]
    rfl
  · rw [if_neg hsame, if_neg, Option.or_none]
    rw [byEffect_ident]
    exact fun h ↦ hsame ⟨h.1.symm, h.2.symm⟩

/-- A step that inserts a row and grants the first claim on it. -/
theorem LedgerInv.insert {e : ExternalEffect} {g : EffectGrant} (hinv : LedgerInv s)
    (hins : s.table.insert e = some t.table) (hgranted : t.granted = s.granted ++ [g])
    (hop : g.args.operationId = e.operationId) (htype : g.args.effectType = e.effectType)
    (hcarries : Carries g e) (hne : g.claim.providerIdempotencyKey ≠ "") (hcount : e.attempts = 1) :
    LedgerInv t := by
  have hnone := find_byEffect_before_insert hins
  have hlook := find_byEffect_of_insert hins
  have hgrants := grantsOf_append hgranted fun g' hg' ↦ by
    obtain rfl := List.mem_singleton.1 hg'
    exact ⟨hop, htype⟩
  refine ⟨fun op type r hr ↦ ?_, fun op type r hr ↦ ?_, fun op type hr ↦ ?_, fun g' hg' ↦ ?_⟩
  · rw [hlook] at hr
    split at hr
    · obtain rfl := Option.some.inj hr
      exact ⟨_, hcarries.2, hne⟩
    · exact hinv.keyed op type r hr
  · rw [hlook] at hr
    rw [hgrants]
    split at hr
    · next h =>
      obtain rfl := Option.some.inj hr
      rw [if_pos h, h.1, h.2, hinv.missing _ _ hnone, hcount]
      rfl
    · next h =>
      rw [if_neg h, List.append_nil]
      exact hinv.counted op type r hr
  · rw [hlook] at hr
    rw [hgrants]
    split at hr
    · cases hr
    · next h =>
      rw [if_neg h, List.append_nil]
      exact hinv.missing op type hr
  · rw [hlook]
    rw [hgranted] at hg'
    rcases List.mem_append.1 hg' with hg' | hg'
    · obtain ⟨r, hr, hsame⟩ := hinv.same g' hg'
      split
      · next h =>
        rw [h.1, h.2, hnone] at hr
        cases hr
      · exact ⟨r, hr, hsame⟩
    · obtain rfl := List.mem_singleton.1 hg'
      exact ⟨e, if_pos ⟨hop, htype⟩, hcarries⟩

/-- **Claims are counted, and carry what the row carries.** -/
theorem LedgerInv.step (hinv : LedgerInv s) (h : ledgerStep S hexdigest s a = some t) :
    LedgerInv t := by
  cases ledgerStep_sound h with
  | begin | selectNone | selectRaise | selectSkip | insertConflict =>
    exact ⟨hinv.keyed, hinv.counted, hinv.missing, hinv.same⟩
  | completeNone => exact hinv
  | @selectClaim c args now _ e e' claim hcall hfind hbegin =>
    obtain ⟨hhash, -, -, rfl, rfl⟩ := beginExisting_claims hbegin
    obtain ⟨k, hk, hne⟩ := hinv.keyed _ _ e hfind
    have hkey : (reclaimRow (effectKey hexdigest args) now e).providerIdempotencyKey =
        e.providerIdempotencyKey := by
      rw [reclaimRow, hk, orStr_of_given hne]
    -- The key of the row is kept, because it is not empty.
    refine hinv.replace hfind rfl rfl rfl rfl hkey rfl fun g hg ↦ ?_
    obtain rfl := List.mem_singleton.1 hg
    refine ⟨⟨rfl, rfl⟩, hhash.symm, ?_⟩
    show e.providerIdempotencyKey = some (orStr (reclaimRow _ now e).providerIdempotencyKey _)
    rw [hkey, hk, orStr_of_given hne]
  | @completeRow op type status error now e e' hfind hcomplete =>
    obtain ⟨-, rfl⟩ := completeExisting_eq_some hcomplete
    exact hinv.replace hfind rfl (List.append_nil _).symm rfl rfl rfl rfl fun g hg ↦ by cases hg
  | @insertRow c args now _ id T hcall hins =>
    have hkey : orStr (some (effectKey hexdigest args)) (effectKey hexdigest args) =
        effectKey hexdigest args := orStr_of_given (effectKey_ne_empty hexdigest args) _
    refine hinv.insert hins rfl rfl rfl ⟨rfl, ?_⟩ ?_ rfl
    · exact congrArg some hkey.symm
    · show orStr (some (effectKey hexdigest args)) (effectKey hexdigest args) ≠ ""
      rw [hkey]
      exact effectKey_ne_empty hexdigest args

theorem LedgerInv.reachable (h : (ledgerMachine S hexdigest).Reachable anyStep s) : LedgerInv s := by
  refine h.invariant ?_ fun _ _ _ hinv _ hstep ↦ hinv.step hstep
  rintro s rfl
  refine ⟨?_, ?_, fun _ _ _ ↦ rfl, ?_⟩
  · intro op type e he
    cases he
  · intro op type e he
    cases he
  · intro g hg
    cases hg

/-! ### Success is final -/

/-- From `s` to `t`, a row that has succeeded is untouched and no claim on it was granted. -/
def SucceededKept (s t : Ledger) : Prop :=
  ∀ op type e, s.table.find (byEffect op type) = some e → e.status = .succeeded →
    t.table.find (byEffect op type) = some e ∧ t.grantsOf op type = s.grantsOf op type

theorem SucceededKept.refl (s : Ledger) : SucceededKept s s := fun _ _ _ hf _ ↦ ⟨hf, rfl⟩

theorem SucceededKept.trans (h₁ : SucceededKept s t) (h₂ : SucceededKept t u) :
    SucceededKept s u := by
  intro op type e hf hsucc
  obtain ⟨hf', hg'⟩ := h₁ op type e hf hsucc
  obtain ⟨hf'', hg''⟩ := h₂ op type e hf' hsucc
  exact ⟨hf'', hg''.trans hg'⟩

theorem SucceededKept.step (h : ledgerStep S hexdigest s a = some t) : SucceededKept s t := by
  intro op type r hr hsucc
  cases ledgerStep_sound h with
  | begin | selectNone | selectRaise | selectSkip | insertConflict | completeNone => exact ⟨hr, rfl⟩
  | @selectClaim c args now k e e' claim hcall hfind hbegin =>
    obtain ⟨-, hne, -, rfl, -⟩ := beginExisting_claims hbegin
    -- The row taken over has not succeeded, so it is another one.
    have hother : ¬(op = args.operationId ∧ type = args.effectType) := by
      rintro ⟨rfl, rfl⟩
      obtain rfl := Option.some.inj (hr.symm.trans hfind)
      exact hne hsucc
    have hident : effectSchema.ident (reclaimRow (effectKey hexdigest args) now e) =
        effectSchema.ident e := rfl
    have hlook := find_replace hfind hident op type
    rw [if_neg hother] at hlook
    exact ⟨hlook.trans hr, grantsOf_of_ne rfl hother⟩
  | @completeRow op' type' status error now e e' hfind hcomplete =>
    -- A completion returns early on a row that has succeeded, so it is about another one too.
    obtain ⟨hne, rfl⟩ := completeExisting_eq_some hcomplete
    have hother : ¬(op = op' ∧ type = type') := by
      rintro ⟨rfl, rfl⟩
      obtain rfl := Option.some.inj (hr.symm.trans hfind)
      exact hne hsucc
    have hident : effectSchema.ident { e with
        status := status
        lastError := (given error).map (slice 500)
        completedAt := some now
        updatedAt := now } = effectSchema.ident e := rfl
    have hlook := find_replace hfind hident op type
    rw [if_neg hother] at hlook
    exact ⟨hlook.trans hr, rfl⟩
  | @insertRow c args now k id T hcall hins =>
    have hother : ¬(op = args.operationId ∧ type = args.effectType) := by
      rintro ⟨rfl, rfl⟩
      exact absurd ((find_byEffect_before_insert hins).symm.trans hr) (by simp)
    exact ⟨Table.find_of_insert_of_some hins hr, grantsOf_of_ne rfl hother⟩

theorem SucceededKept.later (h : (ledgerMachine S hexdigest).Later anyStep s t) :
    SucceededKept s t :=
  h.invariant (I := fun _ ↦ True) (fun s _ ↦ SucceededKept.refl s) (fun _ _ _ _ _ _ ↦ trivial)
    (fun _ _ _ _ _ hkept _ hstep ↦ hkept.trans (SucceededKept.step hstep)) trivial

/-! ### The laws -/

/-- **The ledger invariant**, in every state that any order of calls reaches: one row for an effect;
success is final; another payload is refused and changes nothing; `attempts` counts the claims
granted; and all of those carry one key and one hash. -/
theorem ledger_laws (S : Settings) (hexdigest : String → String) (s : Ledger)
    (hs : (ledgerMachine S hexdigest).Reachable anyStep s) :
    (∀ op type, (s.table.rows.filter fun e ↦ e.operationId = op ∧ e.effectType = type).length ≤ 1) ∧
    (∀ t, (ledgerMachine S hexdigest).Later anyStep s t → SucceededKept s t) ∧
    (∀ c args now k e, s.calls c = .selecting args now k →
      s.table.find (byEffect args.operationId args.effectType) = some e →
      e.payloadHash ≠ args.payloadHash →
      ∃ t, (ledgerMachine S hexdigest).step s (.select c) = some t ∧ t.table = s.table ∧
        t.calls c = .raised (.valueError
          "External effect payload does not match prior operation_id claim")) ∧
    (∀ op type e, s.table.find (byEffect op type) = some e →
      e.attempts = (s.grantsOf op type).length) ∧
    (∀ g ∈ s.granted, ∀ g' ∈ s.granted, g.args.operationId = g'.args.operationId →
      g.args.effectType = g'.args.effectType →
      g.claim.providerIdempotencyKey = g'.claim.providerIdempotencyKey ∧
        g.args.payloadHash = g'.args.payloadHash) := by
  have hinv := LedgerInv.reachable hs
  refine ⟨fun op type ↦ ?_, fun t ht ↦ SucceededKept.later ht, ?_, hinv.counted, ?_⟩
  · have hle := Table.length_filter_le_one (T := s.table) (single_byEffect op type)
    simpa [Prod.ext_iff, byEffect, effectSchema] using hle
  · intro c args now k e hcall hfind hhash
    have hstep : (ledgerMachine S hexdigest).step s (.select c) =
        some (s.select S hexdigest c args now k) := by
      show ledgerStep S hexdigest s (.select c) = _
      simp only [ledgerStep, hcall]
    rw [Ledger.select, hfind] at hstep
    simp only [beginExisting_of_mismatch hhash] at hstep
    exact ⟨_, hstep, rfl, Function.update_self ..⟩
  · intro g hg g' hg' hop htype
    obtain ⟨e, hf, hh, hk⟩ := hinv.same g hg
    obtain ⟨e', hf', hh', hk'⟩ := hinv.same g' hg'
    rw [hop, htype] at hf
    obtain rfl := Option.some.inj (hf.symm.trans hf')
    exact ⟨Option.some.inj (hk.symm.trans hk'), hh.trans hh'.symm⟩

/-- A worker dies after the provider took its message, another finds the row stale and sends again,
and a third call carries another payload. -/
def resentRun : List LedgerAction :=
  let args : BeginArgs := ⟨"email:1", "email", "hash", none⟩
  [.begin 0 args 0, .select 0, .insert 0 7, .begin 1 args 600000000, .select 1,
    .complete "email:1" "email" .succeeded none 600000001,
    .begin 2 ⟨"email:1", "email", "other", none⟩ 600000002, .select 2]

theorem resentRun_isSome :
    ((ledgerMachine .default id).run anyStep .initial resentRun).isSome = true := by
  decide

/-- The state that `resentRun` ends in. -/
def resent : Ledger := Option.get _ resentRun_isSome

theorem resent_ledger_laws :
    (resent.grantsOf "email:1" "email").map (fun g ↦ g.claim.providerIdempotencyKey) =
      ["<email:1@generic-app.invalid>", "<email:1@generic-app.invalid>"] ∧
    ∀ t, (ledgerMachine .default id).Later anyStep resent t → SucceededKept resent t :=
  ⟨by decide, (ledger_laws .default id resent (reachable_run rfl resentRun_isSome)).2.1⟩

end GenericApp
