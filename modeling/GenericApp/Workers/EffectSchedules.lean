import GenericApp.Workers.EffectOwnership

/-!
# The owners of one effect, as schedules of the ledger

`EffectRun` takes a call of `begin_external_effect` in one step, where the ledger takes it in two or
three. Each call of an owner is a schedule of `ledgerMachine` in which nobody comes between its steps,
so whatever the owners of one effect can reach, the ledger can.
-/

namespace GenericApp

open Machine Py

variable {S : Settings} {hexdigest : String → String} {op type : String} {f : Ledger}
  {s t : EffectRun} {a : EffectRunAction}

/-- The ledger `f` shows the owners of one effect in the state `s`. -/
structure ShowsEffect (op type : String) (f : Ledger) (s : EffectRun) : Prop where
  rows : f.table.rows = s.row.toList
  calls : ∀ w, s.phase w = .idle → f.calls w = .idle
  effect : ∀ e, s.row = some e → e.operationId = op ∧ e.effectType = type

theorem ShowsEffect.find (h : ShowsEffect op type f s) :
    f.table.find (byEffect op type) = s.row := by
  rw [Table.find, h.rows]
  rcases hrow : s.row with - | e
  · rfl
  · have := (byEffect_ident op type e).2 (h.effect e hrow)
    simp [this]

/-- After a call, the phases that are idle are the phases that were, but for the caller. -/
theorem ShowsEffect.calls_update {g : Ledger} {w : ℕ} {p : OwnerPhase} (h : ShowsEffect op type f s)
    (hp : p ≠ .idle) (hg : ∀ v, v ≠ w → g.calls v = f.calls v) (now : DateTime) (v : ℕ)
    (hv : (s.setPhase w p now).phase v = .idle) : g.calls v = .idle := by
  have hne : v ≠ w := by
    rintro rfl
    exact hp (by simpa [EffectRun.setPhase] using hv)
  rw [hg v hne]
  exact h.calls v (by simpa [EffectRun.setPhase, Function.update_of_ne hne] using hv)

/-- The one row of a relation, replaced. -/
theorem rows_replace {T : EffectTable} {e e' : ExternalEffect} (h : T.rows = [e])
    (hident : effectSchema.ident e' = effectSchema.ident e) (heff : e.operationId = op ∧ e.effectType = type) :
    (T.modify (byEffect op type) fun _ ↦ e').rows = [e'] := by
  show T.rows.map _ = _
  rw [h, List.map_singleton, Table.modifyRow_of_pos ((byEffect_ident op type e).2 heff) hident]

/-- A row can be inserted into an empty relation. -/
theorem insert_effect_of_rows_nil {T : EffectTable} (h : T.rows = []) (e : ExternalEffect) :
    ∃ T', T.insert e = some T' ∧ T'.rows = [e] := by
  have hall : ∀ a ∈ T.rows, effectSchema.Compat (effectSchema.ident a) (effectSchema.ident e) := by
    simp [h]
  refine ⟨_, dif_pos hall, ?_⟩
  simp [h]

/-- A call of `begin_external_effect`, up to where it looks for the row. -/
theorem begin_schedule (S : Settings) (hexdigest : String → String) {w : ℕ}
    (hcall : f.calls w = .idle) (args : BeginArgs) (now : DateTime) :
    (ledgerMachine S hexdigest).Later anyStep f
      ((f.setCall w (.selecting args now 0)).select S hexdigest w args now 0) := by
  have hbegin : (ledgerMachine S hexdigest).step f (.begin w args now) =
      some (f.setCall w (.selecting args now 0)) := by
    show ledgerStep S hexdigest f (.begin w args now) = _
    simp only [ledgerStep, hcall]
  have hselect : (ledgerMachine S hexdigest).step (f.setCall w (.selecting args now 0)) (.select w) =
      some ((f.setCall w (.selecting args now 0)).select S hexdigest w args now 0) := by
    show ledgerStep S hexdigest _ (.select w) = _
    simp only [ledgerStep, Ledger.setCall, Function.update_self]
  exact (Later.single trivial hbegin).tail trivial hselect

/-- **Every call of an owner is a schedule of the ledger.** -/
theorem effectRun_schedule (h : ShowsEffect op type f s)
    (hstep : (effectRunMachine S hexdigest op type).step s a = some t) :
    ∃ g, (ledgerMachine S hexdigest).Later anyStep f g ∧ ShowsEffect op type g t := by
  change effectRunStep S hexdigest op type s a = some t at hstep
  cases a with
  | complete w status error now =>
    simp only [effectRunStep] at hstep
    split at hstep
    · next hen =>
      obtain rfl := Option.some.inj hstep
      have hcomplete : (ledgerMachine S hexdigest).step f (.complete op type status error now) =
          some (f.complete op type status error now) := rfl
      refine ⟨_, Later.single trivial hcomplete, ?_⟩
      rw [Ledger.complete, if_neg hen.2.2, h.find]
      have hcalls : ∀ g : Ledger, g.calls = f.calls → ∀ v,
          (s.setPhase w .done now).phase v = .idle → g.calls v = .idle := fun g hg ↦
        h.calls_update (by simp) (fun v _ ↦ congrFun hg v) now
      rcases hrow : s.row with - | e
      · refine ⟨?_, hcalls _ rfl, fun e he ↦ by cases he⟩
        show f.table.rows = []
        rw [h.rows, hrow]
        rfl
      · have heff := h.effect e hrow
        have hrows : f.table.rows = [e] := by
          rw [h.rows, hrow]
          rfl
        rcases hc : completeExisting status error now e with - | e'
        · rw [Option.bind_some, hc]
          refine ⟨?_, hcalls _ rfl, fun e' he ↦ ?_⟩
          · rw [Option.map_some, hc]
            exact hrows
          · rw [Option.map_some, hc] at he
            obtain rfl := Option.some.inj he
            exact heff
        · rw [Option.bind_some, hc]
          obtain ⟨-, rfl⟩ := completeExisting_eq_some hc
          refine ⟨?_, hcalls _ rfl, fun e' he ↦ ?_⟩
          · rw [Option.map_some, hc]
            exact rows_replace hrows rfl heff
          · rw [Option.map_some, hc] at he
            obtain rfl := Option.some.inj he
            exact heff
    · cases hstep
  | begin w id args now =>
    simp only [effectRunStep] at hstep
    split at hstep
    · next hen =>
      obtain ⟨-, rfl, rfl, hidle⟩ := hen
      have hlater := begin_schedule S hexdigest (h.calls w hidle) args now
      have hother : ∀ b v, v ≠ w →
          Function.update (Function.update f.calls w (.selecting args now 0)) w b v = f.calls v :=
        fun b v hne ↦ by rw [Function.update_of_ne hne, Function.update_of_ne hne]
      have hfind : (f.setCall w (.selecting args now 0)).table.find
          (byEffect args.operationId args.effectType) = s.row := h.find
      rw [Ledger.select, hfind] at hlater
      split at hstep
      · next hrow =>
        obtain rfl := Option.some.inj hstep
        rw [hrow] at hlater
        obtain ⟨T, hins, hrows⟩ := insert_effect_of_rows_nil (T := f.table)
          (by rw [h.rows, hrow]; rfl) (beginNew id (effectKey hexdigest args) args now)
        have hinsert : (ledgerMachine S hexdigest).step
            ((f.setCall w (.selecting args now 0)).setCall w (.inserting args now 0))
            (.insert w id) = some { (f.setCall w (.selecting args now 0)).setCall w
              (.answered (.of true (effectKey hexdigest args)
                (beginNew id (effectKey hexdigest args) args now))) with
              table := T
              granted := f.granted ++ [⟨args, .of true (effectKey hexdigest args)
                (beginNew id (effectKey hexdigest args) args now)⟩] } := by
          show ledgerStep S hexdigest _ (.insert w id) = _
          simp only [ledgerStep, Ledger.setCall, Function.update_self, Ledger.insert, hins,
            Function.update_idem]
        refine ⟨_, hlater.tail trivial hinsert, hrows, ?_, fun e he ↦ ?_⟩
        · exact h.calls_update (by simp) (hother _) now
        · obtain rfl := Option.some.inj he
          exact ⟨rfl, rfl⟩
      · next e hrow =>
        obtain rfl := Option.some.inj hstep
        rw [hrow] at hlater
        have heff := h.effect e hrow
        have hrows : f.table.rows = [e] := by
          rw [h.rows, hrow]
          rfl
        rw [EffectRun.beginRow]
        rcases hb : beginExisting S (effectKey hexdigest args) args now e with
          message | claim | ⟨e', claim⟩
        · simp only [hb] at hlater
          refine ⟨_, hlater, h.rows, h.calls_update (by simp) (hother _) now, h.effect⟩
        · simp only [hb] at hlater
          refine ⟨_, hlater, h.rows, h.calls_update (by simp) (hother _) now, h.effect⟩
        · simp only [hb] at hlater
          obtain ⟨-, -, -, rfl, -⟩ := beginExisting_claims hb
          refine ⟨_, hlater, ?_, h.calls_update (by simp) (hother _) now, fun e' he ↦ ?_⟩
          · exact rows_replace hrows rfl heff
          · obtain rfl := Option.some.inj he
            exact heff
    · cases hstep

/-- Whatever the owners of one effect reach, the ledger reaches. -/
theorem effectRun_reachable (h : (effectRunMachine S hexdigest op type).Reachable anyStep s) :
    ∃ f, (ledgerMachine S hexdigest).Reachable anyStep f ∧ ShowsEffect op type f s := by
  refine h.invariant (I := fun s ↦
    ∃ f, (ledgerMachine S hexdigest).Reachable anyStep f ∧ ShowsEffect op type f s) ?_ ?_
  · rintro s rfl
    refine ⟨_, Reachable.of_init rfl, rfl, fun _ _ ↦ rfl, fun e he ↦ ?_⟩
    cases he
  · rintro s a t ⟨f, hf, hshows⟩ _ hstep
    obtain ⟨g, hg, ht⟩ := effectRun_schedule hshows hstep
    exact ⟨g, hf.later hg, ht⟩

theorem effectRun_reachable_superseded :
    ∃ f, (ledgerMachine .default id).Reachable anyStep f ∧ ShowsEffect "email:1" "email" f supersededOwner :=
  effectRun_reachable (reachable_run rfl supersededSend_isSome)

end GenericApp
