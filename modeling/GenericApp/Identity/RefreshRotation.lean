import GenericApp.Identity.SessionInvariants

/-!
# A refresh token is used once

`refresh_is_single_use` rests on two facts. The `UPDATE` of `rotate_refresh_session` decides on the committed row
and holds it locked, so of two calls with one token only one can find it unrevoked (`WellFormed.once`). And it
compares with an instant that is not before the start of the call, so what was revoked or expired then stays
so (`Spent.step`).
-/

namespace GenericApp

open Machine Py

namespace IdentityState

variable {world : IdentityWorld} {s t : IdentityState} {a : IdentityAction}

/-- **Single use**: what holds of the sessions and of the calls that have made them. -/
structure SingleUse (s : IdentityState) : Prop where
  /-- A token has one successor. -/
  once {j k : ℕ} {refreshHash : String} {old old' new new' : Uuid}
    (hcall : s.calls[j]? = some (.refresh refreshHash (.done old new)))
    (hcall' : s.calls[k]? = some (.refresh refreshHash (.done old' new'))) : j = k
  /-- A session comes from one call. If that is a `refresh`, it is the successor of an earlier session of the
  same user, which had the token. -/
  origin {i : ℕ} {row : RefreshSession} (hrow : s.sessions[i]? = some row) :
    ∃ (k : ℕ) (call : IdentityCall), s.calls[k]? = some call ∧ call.Creates row.id ∧
      (∀ (j : ℕ) (call' : IdentityCall), s.calls[j]? = some call' → call'.Creates row.id → j = k) ∧
        ∀ (refreshHash : String) (old : Uuid), call = .refresh refreshHash (.done old row.id) →
          ∃ (j : ℕ) (row' : RefreshSession), j < i ∧ s.sessions[j]? = some row' ∧ row'.id = old ∧
            row'.tokenHash = refreshHash ∧ row'.userId = row.userId

theorem getElem?_issued {i : ℕ} {row : RefreshSession} (h : s.sessions[i]? = some row) :
    s.issued[i]? = some row.asIssued := by
  rw [issued, List.getElem?_map, h, Option.map_some]

/-- A session is issued once. -/
theorem WellFormed.index_eq (hs : s.WellFormed) {i j : ℕ} {x y : RefreshSession} (hx : s.issued[i]? = some x)
    (hy : s.issued[j]? = some y) (hid : x.id = y.id) : i = j := by
  obtain ⟨hi, rfl⟩ := List.getElem?_eq_some_iff.1 hx
  obtain ⟨hj, rfl⟩ := List.getElem?_eq_some_iff.1 hy
  have hapart := List.pairwise_iff_getElem.1 hs.apart
  rcases lt_trichotomy i j with hlt | heq | hgt
  · exact absurd hid (hapart i j hi hj hlt).1
  · exact heq
  · exact absurd hid.symm (hapart j i hj hi hgt).1

theorem WellFormed.singleUse (hs : s.WellFormed) : s.SingleUse where
  once := by
    intro j k refreshHash old old' new new' hcall hcall'
    obtain ⟨-, i, -, x, -, -, hi, -, rfl, htoken, -⟩ := hs.fits hcall
    obtain ⟨-, i', -, x', -, -, hi', -, rfl, htoken', -⟩ := hs.fits hcall'
    obtain rfl := hs.eq_of_tokenHash (List.mem_of_getElem? hi) (List.mem_of_getElem? hi')
      (htoken.trans htoken'.symm)
    exact hs.once hcall hcall'
  origin := by
    intro i row hrow
    have hissued := getElem?_issued hrow
    obtain ⟨k, call, hcall, hcreates⟩ := hs.created (List.mem_of_getElem? hissued)
    refine ⟨k, call, hcall, hcreates, fun j call' hcall' hcreates' ↦
      hs.created_once hcall' hcall hcreates' hcreates, ?_⟩
    rintro refreshHash old rfl
    obtain ⟨-, i', j', x, y, hlt, hi', hj', hold, htoken, hnew, huser⟩ := hs.fits hcall
    obtain rfl := hs.index_eq hj' hissued hnew
    obtain rfl := Option.some.inj (hissued.symm.trans hj')
    rw [issued, List.getElem?_map] at hi'
    obtain ⟨row', hrow', rfl⟩ := Option.map_eq_some_iff.1 hi'
    exact ⟨i', row', hlt, hrow', hold, htoken, huser.symm⟩

/-! ### Spent tokens -/

/-- The token is issued, and its session revoked or past its expiry, at the instant `now`. -/
structure Spent (s : IdentityState) (refreshHash : String) (now : DateTime) : Prop where
  issued : ∃ x ∈ s.issued, x.tokenHash = refreshHash
  spent : ∀ row ∈ s.sessions, row.tokenHash = refreshHash → row.isRevoked = true ∨ row.expiresAt ≤ now
  clock : now ≤ s.clock

/-- The call does not rotate the token: if it is a `refresh` of it, it has not updated the session, and
compares with an instant that is not before `now`. -/
def NotRotating (refreshHash : String) (now : DateTime) (call : IdentityCall) : Prop :=
  ∀ stage, call = .refresh refreshHash stage →
    match stage with
    | .rotating _ instant => now ≤ instant
    | .rotated _ | .inserted _ _ | .done _ _ => False
    | _ => True

variable {refreshHash : String} {now : DateTime}

theorem fields_revokeIn (revoked : List Uuid) (row : RefreshSession) :
    (revokeIn revoked row).tokenHash = row.tokenHash ∧ (revokeIn revoked row).expiresAt = row.expiresAt ∧
      (row.isRevoked = true → (revokeIn revoked row).isRevoked = true) := by
  rw [revokeIn]
  split
  · exact ⟨rfl, rfl, fun _ ↦ rfl⟩
  · exact ⟨rfl, rfl, id⟩

/-- **What is spent stays so.** -/
theorem Spent.step (hs : s.WellFormed) (hspent : s.Spent refreshHash now) (h : IdentityStep world s a t) :
    t.Spent refreshHash now := by
  cases h with
  | start request => exact ⟨hspent.issued, hspent.spent, hspent.clock⟩
  | @move k fresh call call' w hcall hmove =>
    obtain ⟨x, hx, htoken⟩ := hspent.issued
    refine ⟨⟨x, mem_issued_write hx, htoken⟩, fun row hrow hhash ↦ ?_, hspent.clock⟩
    rcases mem_sessions_write.1 hrow with ⟨r, hr, rfl⟩ | hrow
    · obtain ⟨htoken', hexpires, hrevoked⟩ := fields_revokeIn w.revoked r
      rw [hexpires]
      exact (hspent.spent r hr (htoken'.symm.trans hhash)).imp_left hrevoked
    · exact absurd (htoken.trans hhash.symm) (hs.created_apart hcall hmove hx row hrow).2
  | fail hcall hlive => exact ⟨hspent.issued, hspent.spent, hspent.clock⟩
  | tick hclock => exact ⟨hspent.issued, hspent.spent, hspent.clock.trans hclock⟩
  | expire token => exact ⟨hspent.issued, hspent.spent, hspent.clock⟩

/-- A call does not come to rotate a token that is spent. -/
theorem NotRotating.move {k : ℕ} {fresh : Uuid × String} {call call' : IdentityCall} {w : IdentityWrites}
    (hspent : s.Spent refreshHash now) (hcall : NotRotating refreshHash now call)
    (hmove : IdentityMove world s k fresh call call' w) : NotRotating refreshHash now call' := by
  rintro stage rfl
  cases hmove with
  | rotating => exact hspent.clock
  | @rotated _ old session instant hmem hrotates =>
    have hinstant : now ≤ instant := hcall _ rfl
    obtain ⟨-, htoken, hactive, hexpires⟩ := hrotates
    rcases hspent.spent session hmem htoken with hrevoked | hexpired
    · exact nomatch hactive.symm.trans hrevoked
    · exact absurd hexpires (not_lt.2 (hexpired.trans hinstant))
  | refreshInserted => exact hcall _ rfl
  | refreshDone => exact hcall _ rfl
  | _ => trivial

/-- No call that starts when a token is spent comes to rotate it. -/
theorem notRotating_later {n : ℕ} (hs : s.WellFormed) (hn : s.calls.length = n)
    (hspent : s.Spent refreshHash now) (h : (identityMachine world).Later anyStep s t) :
    ∀ (k : ℕ) (call : IdentityCall), n ≤ k → t.calls[k]? = some call → NotRotating refreshHash now call := by
  let Q (u : IdentityState) : Prop := u.WellFormed ∧ u.Spent refreshHash now ∧
    ∀ (k : ℕ) (call : IdentityCall), n ≤ k → u.calls[k]? = some call → NotRotating refreshHash now call
  have hall : Q t := by
    refine Later.stable (P := Q) ?_ h ⟨hs, hspent, fun k call hk hcall ↦ ?_⟩
    · rintro u a v ⟨hu, hspent', hcalls⟩ - hstep
      have hstep := identityStep_cases hstep
      refine ⟨hu.step hstep, hspent'.step hu hstep, fun k call hk hcall ↦ ?_⟩
      cases hstep with
      | start request =>
        rcases lt_or_ge k u.calls.length with hlt | hge
        · exact hcalls k call hk ((List.getElem?_append_left hlt).symm.trans hcall)
        · rw [List.getElem?_append_right hge] at hcall
          obtain rfl := List.mem_singleton.1 (List.mem_of_getElem? hcall)
          rintro stage hstage
          cases request <;> cases hstage
          trivial
      | move hbefore hmove =>
        rcases calls_write hbefore hcall with ⟨rfl, rfl⟩ | ⟨-, hother⟩
        · exact (hcalls k _ hk hbefore).move hspent' hmove
        · exact hcalls k call hk hother
      | @fail j other hother hlive =>
        by_cases hj : j = k
        · subst hj
          have hset := List.getElem?_set_self (a := other.failed) (List.getElem?_eq_some_iff.1 hother).1
          obtain rfl := Option.some.inj (hset.symm.trans hcall)
          rintro stage hstage
          cases other <;> cases hstage
          trivial
        · exact hcalls k call hk ((List.getElem?_set_ne hj).symm.trans hcall)
      | tick hclock => exact hcalls k call hk hcall
      | expire token => exact hcalls k call hk hcall
    · exact absurd (List.getElem?_eq_some_iff.1 hcall).1 (by omega)
  exact hall.2.2

/-- **Refresh rotation is single-use.** In every reachable state a token has one successor and a session one
origin; and a call that starts in that state, or later, rotates only a token whose session is active then. -/
theorem refresh_is_single_use (world : IdentityWorld) {s : IdentityState}
    (hs : (identityMachine world).Reachable anyStep s) :
    s.SingleUse ∧ ∀ t, (identityMachine world).Later anyStep s t → ∀ (k : ℕ) (refreshHash : String)
      (old new : Uuid), s.calls.length ≤ k → t.calls[k]? = some (.refresh refreshHash (.done old new)) →
        ∀ row ∈ s.sessions, row.tokenHash = refreshHash → row.Active s.clock := by
  have hwf := WellFormed.reachable hs
  refine ⟨hwf.singleUse, fun t hlater k refreshHash old new hk hcall row hrow htoken ↦ ?_⟩
  by_contra hinactive
  have hspent : s.Spent refreshHash s.clock := by
    refine ⟨⟨row.asIssued, asIssued_mem hrow, htoken⟩, fun row' hrow' htoken' ↦ ?_, le_refl _⟩
    have heq := hwf.eq_of_tokenHash (asIssued_mem hrow) (asIssued_mem hrow') (htoken.trans htoken'.symm)
    have hid : row.asIssued.id = row'.asIssued.id := congrArg RefreshSession.id heq
    obtain rfl := hwf.eq_of_id hrow hrow' hid
    rw [RefreshSession.Active, not_and_or, Bool.not_eq_false, not_lt] at hinactive
    exact hinactive
  exact notRotating_later hwf rfl hspent hlater k _ hk hcall _ rfl

/-! ### A run -/

/-- Passwords are stored as they are, and there are no codes. -/
def plainIdentityWorld : IdentityWorld where
  verifyPassword password passwordHash := password = passwordHash
  verifyTotp _ _ _ := false
  mfaAvailable := false
  requireEmailVerification := false
  refreshTokenExpireDays := 30

/-- One user, and two reset tokens. -/
def oneUser : IdentityState where
  clock := 0
  users := [⟨"u1", "u1@example.org", "secret", true, true, false, none⟩]
  sessions := []
  resetTokens := [("r1", "u1"), ("r2", "u1")]
  calls := []

/-- The user signs in and gets the token `t1`. -/
def signInRun : List IdentityAction :=
  [.start (.signIn "u1@example.org" "secret" none), .move 0 (1, "t1"), .move 0 (1, "t1"), .move 0 (1, "t1")]

/-- Two calls refresh `t1`: both read the session, one updates it, and the other one is refused. -/
def rotationRun : List IdentityAction :=
  signInRun ++ [.start (.refresh "t1"), .start (.refresh "t1"), .move 1 (2, "t2"), .move 2 (3, "t3"),
    .move 1 (2, "t2"), .move 2 (3, "t3"), .move 1 (2, "t2"), .move 2 (3, "t3"), .move 1 (2, "t2"),
    .move 1 (2, "t2"), .move 1 (2, "t2"), .move 2 (3, "t3")]

theorem rotationRun_isSome :
    ((identityMachine plainIdentityWorld).run anyStep oneUser rotationRun).isSome = true := by
  decide +kernel

/-- The state after it. -/
def afterRotation : IdentityState := Option.get _ rotationRun_isSome

/-- In it, the one call is done and the other one is not. -/
theorem refresh_is_single_use_rotation :
    afterRotation.SingleUse ∧ afterRotation.calls[1]? = some (.refresh "t1" (.done 1 2)) ∧
      afterRotation.calls[2]? = some (.refresh "t1" (.raised .invalidRefreshToken)) :=
  ⟨(refresh_is_single_use plainIdentityWorld (reachable_run (by exact ⟨rfl, rfl⟩) rotationRun_isSome)).1,
    by decide +kernel, by decide +kernel⟩

end IdentityState

end GenericApp
