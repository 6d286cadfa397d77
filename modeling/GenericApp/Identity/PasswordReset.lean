import GenericApp.Identity.RefreshRotation

/-!
# Resetting a password closes the sessions

`reset_password` revokes the sessions that it has read as active, one by one, and commits. A `refresh` that
has rotated one of them before it is updated puts a successor beside it that the list does not have; and two
resets that have read the same token both change the password. `resets_close` says that nothing else goes
wrong: in a run in which no `refresh` rotates across the list of a reset, and no token is read by a reset while
another one is at work with it, both promises are kept.
-/

namespace GenericApp

open Machine Py

/-! ### What is said of a reset -/

namespace IdentityCall

/-- The sessions that a reset has read and not updated. -/
def listed : IdentityCall → List Uuid
  | resetPassword _ _ _ (.revoking _ _ remaining _) => remaining
  | _ => []

/-- The call is a reset that has read the sessions of the user. -/
def hasListed (userId : String) : IdentityCall → Bool
  | resetPassword _ _ _ (.revoking other _ _ _) => other = userId
  | resetPassword _ _ _ (.committed other _) => other = userId
  | resetPassword _ _ _ (.done other _) => other = userId
  | _ => false

/-- The session that a `refresh` has updated and not committed. -/
def rotated : IdentityCall → List Uuid
  | refresh _ (.rotated old) => [old.id]
  | refresh _ (.inserted old _) => [old.id]
  | _ => []

/-- The token that a reset has read and neither deleted nor given up. -/
def heldToken : IdentityCall → Option String
  | resetPassword token _ _ (.claimed _) => some token
  | resetPassword token _ _ (.found _) => some token
  | resetPassword token _ _ (.listing _ _) => some token
  | resetPassword token _ _ (.flushed _ _) => some token
  | resetPassword token _ _ (.revoking _ _ _ _) => some token
  | resetPassword token _ _ (.committed _ _) => some token
  | _ => none

/-- The token of a reset that has returned. -/
def spentToken : IdentityCall → Option String
  | resetPassword token _ _ (.done _ _) => some token
  | _ => none

end IdentityCall

namespace IdentityState

/-- The session numbered `i`, or one that has come from it by rotation. -/
inductive Descends (s : IdentityState) (i : ℕ) : ℕ → Prop
  | refl : Descends s i i
  | rotated {j j' k : ℕ} {row row' : RefreshSession} {refreshHash : String} (h : Descends s i j)
      (hrow : s.sessions[j]? = some row) (hrow' : s.sessions[j']? = some row')
      (hcall : s.calls[k]? = some (.refresh refreshHash (.done row.id row'.id))) : Descends s i j'

/-- **The promises of a reset.** -/
structure ResetsClose (s : IdentityState) : Prop where
  /-- When a reset has returned, a session of the user that there was when it started is not active, nor is one
  that has come from it, and no `refresh` has rotated it and is yet to commit. -/
  closed {k before seen i j : ℕ} {token newPasswordHash userId : String} {row row' : RefreshSession}
    (hcall : s.calls[k]? = some (.resetPassword token newPasswordHash before (.done userId seen)))
    (hbefore : i < before) (hrow : s.sessions[i]? = some row) (huser : row.userId = userId)
    (hdescends : s.Descends i j) (hrow' : s.sessions[j]? = some row') :
    ¬row'.Active s.clock ∧ ∀ call ∈ s.calls, row'.id ∉ call.rotated
  /-- A token has one reset that has returned. -/
  once {j k : ℕ} {call call' : IdentityCall} {token : String} (hcall : s.calls[j]? = some call)
    (hcall' : s.calls[k]? = some call') (hspent : call.spentToken = some token)
    (hspent' : call'.spentToken = some token) : j = k

/-- The next statement of the call does not disturb a reset: a reset reads its token when no other one holds it,
and its sessions when none of them is being rotated; and a `refresh` rotates no session that a reset has read
and is yet to update, and none that has expired, once a reset has read the sessions of its user. -/
def mayMove (s : IdentityState) : IdentityCall → Bool
  | .refresh refreshHash (.rotating old now) =>
    ∀ row ∈ s.sessions, Rotates refreshHash old now row → ∀ call ∈ s.calls,
      row.id ∉ call.listed ∧ (call.hasListed row.userId = true → s.clock < row.expiresAt)
  | .resetPassword token _ _ .started => ∀ call ∈ s.calls, call.heldToken ≠ some token
  | .resetPassword _ _ _ (.flushed userId _) =>
    ∀ call ∈ s.calls, ∀ row ∈ s.sessions, row.userId = userId → row.id ∉ call.rotated
  | _ => true

/-- The step does not disturb a reset. -/
def Undisturbed (s : IdentityState) : IdentityAction → Prop
  | .move k _ => (s.calls[k]?).all s.mayMove = true
  | _ => True

instance (s : IdentityState) : (a : IdentityAction) → Decidable (s.Undisturbed a)
  | .move k _ => inferInstanceAs (Decidable ((s.calls[k]?).all s.mayMove = true))
  | .start _ | .fail _ | .tick _ | .expire _ => inferInstanceAs (Decidable True)

end IdentityState

/-! ### Closing -/

/-- A reset that has read the sessions: whose they are, how many there were when it started and when it read
them, and those that it has found active and not yet revoked. -/
structure Closing where
  userId : String
  before : ℕ
  seen : ℕ
  toRevoke : List Uuid

namespace IdentityCall

/-- What a reset closes. -/
def closing : IdentityCall → Option Closing
  | resetPassword _ _ before (.revoking userId seen remaining revoked) =>
    some ⟨userId, before, seen, remaining ++ revoked⟩
  | resetPassword _ _ before (.committed userId seen) => some ⟨userId, before, seen, []⟩
  | resetPassword _ _ before (.done userId seen) => some ⟨userId, before, seen, []⟩
  | _ => none

/-- The instant that a reset has taken to read the sessions. -/
def instant : IdentityCall → Option DateTime
  | resetPassword _ _ _ (.listing _ now) => some now
  | resetPassword _ _ _ (.flushed _ now) => some now
  | _ => none

/-- The number of sessions when a reset started. -/
def before : IdentityCall → Option ℕ
  | resetPassword _ _ before _ => some before
  | _ => none

end IdentityCall

namespace IdentityState

/-- A session of the user that a reset has seen. -/
structure SeenBy (s : IdentityState) (c : Closing) (i : ℕ) (row : RefreshSession) : Prop where
  row_eq : s.sessions[i]? = some row
  lt : i < c.seen
  userId_eq : row.userId = c.userId

/-- What holds of a reset that has read the sessions. -/
structure Closes (s : IdentityState) (c : Closing) : Prop where
  before_le : c.before ≤ c.seen
  seen_le : c.seen ≤ s.sessions.length
  /-- What is active is about to be revoked. -/
  covered {i : ℕ} {row : RefreshSession} (hseen : s.SeenBy c i row) (hactive : row.Active s.clock) :
    row.id ∈ c.toRevoke
  /-- Nothing is being rotated. -/
  unrotated {i : ℕ} {row : RefreshSession} (hseen : s.SeenBy c i row) :
    ∀ call ∈ s.calls, row.id ∉ call.rotated
  /-- What was rotated has its successor among the sessions that the reset has seen. -/
  confined {i j : ℕ} {row row' : RefreshSession} {refreshHash : String} (hseen : s.SeenBy c i row)
    (hcall : IdentityCall.refresh refreshHash (.done row.id row'.id) ∈ s.calls)
    (hrow' : s.sessions[j]? = some row') : j < c.seen

end IdentityState

/-! ### Resets along a move -/

section Move

variable {world : IdentityWorld} {s : IdentityState} {k : ℕ} {fresh : Uuid × String}
  {call call' : IdentityCall} {w : IdentityWrites} {c : Closing}

theorem IdentityCall.rotated_subset {sessionId : Uuid} (h : sessionId ∈ call.rotated) :
    sessionId ∈ call.locks := by
  cases call with
  | refresh refreshHash stage =>
    cases stage with
    | rotated old => exact h
    | inserted old new => exact h
    | _ => exact nomatch h
  | _ => exact nomatch h

/-- A reset that has returned holds no token. -/
theorem IdentityCall.held_of_spent {token : String} (h : call.spentToken = some token) :
    call.heldToken = none := by
  cases call with
  | resetPassword token newPasswordHash before stage =>
    cases stage with
    | done userId seen => rfl
    | _ => exact nomatch h
  | _ => exact nomatch h

/-- What is to be revoked is listed, or updated and locked. -/
theorem IdentityCall.toRevoke_cases (h : call.closing = some c) {sessionId : Uuid}
    (hid : sessionId ∈ c.toRevoke) : sessionId ∈ call.listed ∨ sessionId ∈ call.locks := by
  cases call with
  | resetPassword token newPasswordHash before stage =>
    cases stage with
    | revoking userId seen remaining revoked =>
      obtain rfl := Option.some.inj h
      exact List.mem_append.1 hid
    | committed userId seen =>
      obtain rfl := Option.some.inj h
      exact nomatch hid
    | done userId seen =>
      obtain rfl := Option.some.inj h
      exact nomatch hid
    | _ => exact nomatch h
  | _ => exact nomatch h

theorem IdentityCall.hasListed_of_closing (h : call.closing = some c) : call.hasListed c.userId = true := by
  cases call with
  | resetPassword token newPasswordHash before stage =>
    cases stage with
    | revoking userId seen remaining revoked =>
      obtain rfl := Option.some.inj h
      exact decide_eq_true rfl
    | committed userId seen =>
      obtain rfl := Option.some.inj h
      exact decide_eq_true rfl
    | done userId seen =>
      obtain rfl := Option.some.inj h
      exact decide_eq_true rfl
    | _ => exact nomatch h
  | _ => exact nomatch h

/-- A reset that closes sessions has just read them, or was closing them before, and what it is not to revoke
any more it has revoked. -/
theorem IdentityMove.closing_cases (h : IdentityMove world s k fresh call call' w)
    (hclosing : call'.closing = some c) :
    (∃ (token newPasswordHash : String) (now : DateTime),
        call = .resetPassword token newPasswordHash c.before (.flushed c.userId now) ∧
          c.seen = s.sessions.length ∧ c.toRevoke = s.activeSessions c.userId now) ∨
      ∃ c₀, call.closing = some c₀ ∧ c = { c₀ with toRevoke := c.toRevoke } ∧
        ∀ sessionId ∈ c₀.toRevoke, sessionId ∈ c.toRevoke ∨ sessionId ∈ w.revoked := by
  cases h with
  | listed =>
    obtain rfl := Option.some.inj hclosing
    exact .inl ⟨_, _, _, rfl, rfl, List.append_nil _⟩
  | updated =>
    obtain rfl := Option.some.inj hclosing
    refine .inr ⟨_, rfl, rfl, fun sessionId hid ↦ .inl ?_⟩
    exact List.perm_middle.symm.mem_iff.1 hid
  | committed =>
    obtain rfl := Option.some.inj hclosing
    exact .inr ⟨_, rfl, rfl, fun sessionId hid ↦ .inr hid⟩
  | resetDone =>
    obtain rfl := Option.some.inj hclosing
    exact .inr ⟨_, rfl, rfl, fun sessionId hid ↦ .inl hid⟩
  | _ => exact nomatch hclosing

/-- What a `refresh` has rotated it had rotated before, or it rotates it now. -/
theorem IdentityMove.rotated_cases (h : IdentityMove world s k fresh call call' w) {sessionId : Uuid}
    (hid : sessionId ∈ call'.rotated) : sessionId ∈ call.rotated ∨
      ∃ (refreshHash : String) (old row : RefreshSession) (now : DateTime),
        call = .refresh refreshHash (.rotating old now) ∧ row ∈ s.sessions ∧ row.id = sessionId ∧
          Rotates refreshHash old now row ∧ s.unlocked k sessionId = true := by
  cases h with
  | rotated hmem hrotates hunlocked =>
    obtain rfl := List.mem_singleton.1 hid
    exact .inr ⟨_, _, _, _, rfl, hmem, hrotates.1, hrotates, hunlocked⟩
  | refreshInserted => exact .inl hid
  | _ => exact nomatch hid

/-- A `refresh` is done when it has rotated. -/
theorem IdentityMove.rotated_of_done (h : IdentityMove world s k fresh call call' w) {refreshHash : String}
    {old new : Uuid} (hdone : call' = .refresh refreshHash (.done old new)) : old ∈ call.rotated := by
  cases h with
  | refreshDone =>
    obtain ⟨-, hstage⟩ := IdentityCall.refresh.inj hdone
    obtain ⟨rfl, -⟩ := RefreshStage.done.inj hstage
    exact List.mem_singleton_self _
  | _ => exact nomatch hdone

theorem IdentityMove.before_eq (h : IdentityMove world s k fresh call call' w) :
    call'.before = call.before := by
  cases h <;> rfl

/-- An instant is taken when it is now. -/
theorem IdentityMove.instant_cases (h : IdentityMove world s k fresh call call' w) {now : DateTime}
    (hinstant : call'.instant = some now) : call.instant = some now ∨ now = s.clock := by
  cases h with
  | listing => exact .inr (Option.some.inj hinstant).symm
  | flushed => exact .inl hinstant
  | _ => exact nomatch hinstant

/-- A token that a reset holds it held before, or reads now. -/
theorem IdentityMove.held_cases (h : IdentityMove world s k fresh call call' w) {token : String}
    (hheld : call'.heldToken = some token) : call.heldToken = some token ∨
      (∃ newPasswordHash before, call = .resetPassword token newPasswordHash before .started) ∧
        ∃ entry ∈ s.resetTokens, entry.1 = token := by
  cases h with
  | @claimed token' newPasswordHash before userId htoken =>
    obtain rfl := Option.some.inj hheld
    refine .inr ⟨⟨_, _, rfl⟩, ?_⟩
    obtain ⟨left, right, hentries, -⟩ := List.lookup_eq_some_iff.1 (given_eq_some_iff.1 htoken).1
    exact ⟨(token', userId), by rw [hentries]; simp, rfl⟩
  | resetFound => exact .inl hheld
  | listing => exact .inl hheld
  | flushed => exact .inl hheld
  | listed => exact .inl hheld
  | updated => exact .inl hheld
  | committed => exact .inl hheld
  | _ => exact nomatch hheld

/-- A reset returns when it has deleted its token. -/
theorem IdentityMove.spent_cases (h : IdentityMove world s k fresh call call' w) {token : String}
    (hspent : call'.spentToken = some token) :
    call.heldToken = some token ∧ w.deletedToken = some token := by
  cases h with
  | resetDone => exact ⟨hspent, hspent⟩
  | _ => exact nomatch hspent

namespace IdentityState

/-- The writes of a call at the place of a session that there was. -/
theorem SeenBy.of_write {i : ℕ} {row' : RefreshSession} (hle : c.seen ≤ s.sessions.length)
    (h : (s.write k call' w).SeenBy c i row') :
    ∃ row, s.SeenBy c i row ∧ row' = revokeIn w.revoked row := by
  have hlt : i < s.sessions.length := h.lt.trans_le hle
  have hget : (s.write k call' w).sessions[i]? = some (revokeIn w.revoked s.sessions[i]) := by
    rw [write, List.getElem?_append_left (by rwa [List.length_map]), List.getElem?_map,
      List.getElem?_eq_getElem hlt, Option.map_some]
  obtain rfl := Option.some.inj (h.row_eq.symm.trans hget)
  have huser : (revokeIn w.revoked s.sessions[i]).userId = s.sessions[i].userId := by
    rw [revokeIn]
    split <;> rfl
  exact ⟨_, ⟨List.getElem?_eq_getElem hlt, h.lt, huser.symm.trans h.userId_eq⟩, rfl⟩

/-- **A move keeps what is closed closed**, where it rotates nothing of it. -/
theorem Closes.write (hs : s.WellFormed) (h : s.Closes c) (hcall : s.calls[k]? = some call)
    (hmove : IdentityMove world s k fresh call call' w)
    (hrotated : ∀ {i : ℕ} {row : RefreshSession}, s.SeenBy c i row → row.id ∉ call'.rotated)
    {toRevoke : List Uuid} (hsub : ∀ sessionId ∈ c.toRevoke, sessionId ∈ toRevoke ∨ sessionId ∈ w.revoked) :
    (s.write k call' w).Closes { c with toRevoke := toRevoke } where
  before_le := h.before_le
  seen_le := by
    refine h.seen_le.trans ?_
    rw [IdentityState.write, List.length_append, List.length_map]
    exact Nat.le_add_right _ _
  covered := by
    intro i row' hseen' hactive
    obtain ⟨row, hseen, rfl⟩ := SeenBy.of_write h.seen_le ⟨hseen'.row_eq, hseen'.lt, hseen'.userId_eq⟩
    by_cases hrevoked : row.id ∈ w.revoked
    · rw [revokeIn, if_pos hrevoked] at hactive
      cases hactive.1
    · rw [revokeIn, if_neg hrevoked] at hactive ⊢
      exact (hsub _ (h.covered hseen hactive)).resolve_right hrevoked
  unrotated := by
    intro i row' hseen' other hother
    obtain ⟨row, hseen, rfl⟩ := SeenBy.of_write h.seen_le ⟨hseen'.row_eq, hseen'.lt, hseen'.userId_eq⟩
    rw [id_revokeIn]
    obtain ⟨j, hother⟩ := List.mem_iff_getElem?.1 hother
    rcases calls_write hcall hother with ⟨-, rfl⟩ | ⟨-, hbefore⟩
    · exact hrotated hseen
    · exact h.unrotated hseen other (List.mem_of_getElem? hbefore)
  confined := by
    intro i j row' successor refreshHash hseen' hdone hsuccessor
    obtain ⟨row, hseen, rfl⟩ := SeenBy.of_write h.seen_le ⟨hseen'.row_eq, hseen'.lt, hseen'.userId_eq⟩
    rw [id_revokeIn] at hdone
    obtain ⟨n, hdone⟩ := List.mem_iff_getElem?.1 hdone
    rcases calls_write hcall hdone with ⟨-, heq⟩ | ⟨-, hbefore⟩
    · exact absurd (hmove.rotated_of_done heq.symm) (h.unrotated hseen call (List.mem_of_getElem? hcall))
    · obtain ⟨-, i₀, j₀, x, y, -, -, hy, -, -, hid, -⟩ := hs.fits hbefore
      obtain rfl := (hs.write hcall hmove).index_eq (getElem?_issued hsuccessor) (getElem?_issued_write hy)
        hid.symm
      rw [issued, List.getElem?_map] at hy
      obtain ⟨row₀, hrow₀, rfl⟩ := Option.map_eq_some_iff.1 hy
      have hid₀ : row₀.id = successor.id := hid
      exact h.confined hseen (hid₀ ▸ List.mem_of_getElem? hbefore) hrow₀

/-- An undisturbed move rotates nothing that another call is closing. -/
theorem Closes.not_rotated (hs : s.WellFormed) (h : s.Closes c) {owner : IdentityCall}
    (howner : owner ∈ s.calls) (hclosing : owner.closing = some c) (hcall : s.calls[k]? = some call)
    (hmove : IdentityMove world s k fresh call call' w) (hmay : s.mayMove call = true) {i : ℕ}
    {row : RefreshSession} (hseen : s.SeenBy c i row) : row.id ∉ call'.rotated := by
  intro hid
  rcases hmove.rotated_cases hid with hid | ⟨refreshHash, old, row', now, rfl, hmem, hid', hrotates, hunlocked⟩
  · exact h.unrotated hseen call (List.mem_of_getElem? hcall) hid
  · obtain rfl := hs.eq_of_id hmem (List.mem_of_getElem? hseen.row_eq) hid'
    obtain ⟨hunlisted, hexpires⟩ := of_decide_eq_true hmay row' hmem hrotates owner howner
    have hactive : row'.Active s.clock := by
      refine ⟨hrotates.2.2.1, hexpires ?_⟩
      rw [hseen.userId_eq]
      exact IdentityCall.hasListed_of_closing hclosing
    rcases IdentityCall.toRevoke_cases hclosing (h.covered hseen hactive) with hlisted | hlocked
    · exact hunlisted hlisted
    · obtain ⟨j, hj⟩ := List.mem_iff_getElem?.1 howner
      refine unlocked_iff.1 hunlocked j owner hj ?_ hlocked
      rintro rfl
      obtain rfl := Option.some.inj (hcall.symm.trans hj)
      exact nomatch hclosing

/-- A reset that reads the sessions closes them. -/
theorem closes_listed {before : ℕ} {userId : String} {now : DateTime} (hbefore : before ≤ s.sessions.length)
    (hnow : now ≤ s.clock)
    (hmay : ∀ call ∈ s.calls, ∀ row ∈ s.sessions, row.userId = userId → row.id ∉ call.rotated) :
    s.Closes ⟨userId, before, s.sessions.length, s.activeSessions userId now⟩ where
  before_le := hbefore
  seen_le := le_refl _
  covered := by
    intro i row hseen hactive
    refine (List.mem_insertionSort _).2 (List.mem_map.2 ⟨row, List.mem_filter.2 ⟨?_, ?_⟩, rfl⟩)
    · exact List.mem_of_getElem? hseen.row_eq
    · exact decide_eq_true ⟨hseen.userId_eq, hactive.1, hnow.trans_lt hactive.2⟩
  unrotated := by
    intro i row hseen call hcall
    exact hmay call hcall row (List.mem_of_getElem? hseen.row_eq) hseen.userId_eq
  confined := by
    intro i j row row' refreshHash _ _ hrow'
    exact (List.getElem?_eq_some_iff.1 hrow').1

end IdentityState

end Move

/-! ### Resets along a run -/

/-- A call that holds and closes nothing. -/
structure IdentityCall.Idle (call : IdentityCall) : Prop where
  inert : call.Inert
  closing : call.closing = none
  instant : call.instant = none
  held : call.heldToken = none
  spent : call.spentToken = none

theorem IdentityRequest.idle_call (request : IdentityRequest) (before : ℕ) : (request.call before).Idle := by
  cases request <;> exact ⟨IdentityRequest.inert_call _ _, rfl, rfl, rfl, rfl⟩

theorem IdentityCall.idle_failed (call : IdentityCall) : call.failed.Idle := by
  cases call <;> exact ⟨IdentityCall.inert_failed _, rfl, rfl, rfl, rfl⟩

namespace IdentityState

variable {world : IdentityWorld} {s t : IdentityState} {a : IdentityAction} {c : Closing}

/-- What holds of the resets in a run in which none is disturbed. -/
structure Resets (s : IdentityState) : Prop where
  wellFormed : s.WellFormed
  closes {call : IdentityCall} {c : Closing} (hcall : call ∈ s.calls) (hclosing : call.closing = some c) :
    s.Closes c
  before_le {call : IdentityCall} {n : ℕ} (hcall : call ∈ s.calls) (hbefore : call.before = some n) :
    n ≤ s.sessions.length
  instant_le {call : IdentityCall} {now : DateTime} (hcall : call ∈ s.calls)
    (hinstant : call.instant = some now) : now ≤ s.clock
  spent_gone {call : IdentityCall} {token : String} (hcall : call ∈ s.calls)
    (hspent : call.spentToken = some token) : ∀ entry ∈ s.resetTokens, entry.1 ≠ token
  held_unspent {call call' : IdentityCall} {token : String} (hcall : call ∈ s.calls) (hcall' : call' ∈ s.calls)
    (hheld : call.heldToken = some token) : call'.spentToken ≠ some token
  held_once {j k : ℕ} {call call' : IdentityCall} {token : String} (hcall : s.calls[j]? = some call)
    (hcall' : s.calls[k]? = some call') (hheld : call.heldToken = some token)
    (hheld' : call'.heldToken = some token) : j = k
  spent_once {j k : ℕ} {call call' : IdentityCall} {token : String} (hcall : s.calls[j]? = some call)
    (hcall' : s.calls[k]? = some call') (hspent : call.spentToken = some token)
    (hspent' : call'.spentToken = some token) : j = k

/-- Idle calls and the passing of time keep what is closed closed. -/
theorem Closes.of_calls (h : s.Closes c) (hsessions : t.sessions = s.sessions) (hclock : s.clock ≤ t.clock)
    (hcalls : ∀ call ∈ t.calls, call ∈ s.calls ∨ call.Idle) : t.Closes c := by
  have hseen {i : ℕ} {row : RefreshSession} (hseen : t.SeenBy c i row) : s.SeenBy c i row :=
    ⟨hsessions ▸ hseen.row_eq, hseen.lt, hseen.userId_eq⟩
  refine ⟨h.before_le, hsessions ▸ h.seen_le, fun hrow hactive ↦ ?_, fun hrow call hcall ↦ ?_,
    fun hrow hcall hrow' ↦ ?_⟩
  · exact h.covered (hseen hrow) ⟨hactive.1, hclock.trans_lt hactive.2⟩
  · rcases hcalls call hcall with hbefore | hidle
    · exact h.unrotated (hseen hrow) call hbefore
    · intro hid
      have hlocked := IdentityCall.rotated_subset hid
      rw [hidle.inert.locks] at hlocked
      exact List.not_mem_nil hlocked
  · rcases hcalls _ hcall with hbefore | hidle
    · exact h.confined (hseen hrow) hbefore (hsessions ▸ hrow')
    · exact absurd (.refresh _ _ _) (hidle.inert.creates _)

/-- A step that is not a move keeps the resets, where the calls that it changes are idle. -/
theorem Resets.of_calls (hs : s.Resets) (ht : t.WellFormed) (hsessions : t.sessions = s.sessions)
    (hclock : s.clock ≤ t.clock) (htokens : ∀ entry ∈ t.resetTokens, entry ∈ s.resetTokens)
    (hback : ∀ (k : ℕ) (call : IdentityCall), t.calls[k]? = some call → s.calls[k]? = some call ∨ call.Idle)
    (hbefore : ∀ call ∈ t.calls, ∀ n, call.before = some n → n ≤ s.sessions.length) : t.Resets := by
  have hmem (call : IdentityCall) (hcall : call ∈ t.calls) : call ∈ s.calls ∨ call.Idle := by
    obtain ⟨k, hk⟩ := List.mem_iff_getElem?.1 hcall
    exact (hback k call hk).imp_left List.mem_of_getElem?
  have hheld {k : ℕ} {call : IdentityCall} {token : String} (hcall : t.calls[k]? = some call)
      (h : call.heldToken = some token) : s.calls[k]? = some call :=
    (hback k call hcall).resolve_right fun hidle ↦ nomatch hidle.held.symm.trans h
  have hspent {k : ℕ} {call : IdentityCall} {token : String} (hcall : t.calls[k]? = some call)
      (h : call.spentToken = some token) : s.calls[k]? = some call :=
    (hback k call hcall).resolve_right fun hidle ↦ nomatch hidle.spent.symm.trans h
  refine ⟨ht, ?_, ?_, ?_, ?_, ?_, ?_, ?_⟩
  · intro call c hcall hclosing
    rcases hmem call hcall with hcall | hidle
    · exact (hs.closes hcall hclosing).of_calls hsessions hclock hmem
    · exact nomatch hidle.closing.symm.trans hclosing
  · intro call n hcall h
    rw [hsessions]
    exact hbefore call hcall n h
  · intro call now hcall hinstant
    rcases hmem call hcall with hcall | hidle
    · exact (hs.instant_le hcall hinstant).trans hclock
    · exact nomatch hidle.instant.symm.trans hinstant
  · intro call token hcall h entry hentry
    obtain ⟨k, hk⟩ := List.mem_iff_getElem?.1 hcall
    exact hs.spent_gone (List.mem_of_getElem? (hspent hk h)) h entry (htokens entry hentry)
  · intro call call' token hcall hcall' h h'
    obtain ⟨j, hj⟩ := List.mem_iff_getElem?.1 hcall
    obtain ⟨k, hk⟩ := List.mem_iff_getElem?.1 hcall'
    exact hs.held_unspent (List.mem_of_getElem? (hheld hj h)) (List.mem_of_getElem? (hspent hk h')) h h'
  · intro j k call call' token hcall hcall' h h'
    exact hs.held_once (hheld hcall h) (hheld hcall' h') h h'
  · intro j k call call' token hcall hcall' h h'
    exact hs.spent_once (hspent hcall h) (hspent hcall' h') h h'

/-- **An undisturbed move keeps the resets.** -/
theorem Resets.write (hs : s.Resets) {k : ℕ} {fresh : Uuid × String} {call call' : IdentityCall}
    {w : IdentityWrites} (hcall : s.calls[k]? = some call)
    (hmove : IdentityMove world s k fresh call call' w) (hmay : s.mayMove call = true) :
    (s.write k call' w).Resets := by
  have hwf := hs.wellFormed
  have hold : call ∈ s.calls := List.mem_of_getElem? hcall
  have hmem {other : IdentityCall} (hother : other ∈ (s.write k call' w).calls) :
      other = call' ∨ other ∈ s.calls := by
    obtain ⟨j, hj⟩ := List.mem_iff_getElem?.1 hother
    exact (calls_write hcall hj).imp (fun h ↦ h.2) fun h ↦ List.mem_of_getElem? h.2
  have hentry {entry : String × String} (h : entry ∈ (s.write k call' w).resetTokens) :
      entry ∈ s.resetTokens ∧ w.deletedToken ≠ some entry.1 := by
    obtain ⟨hentry, hkept⟩ := List.mem_filter.1 h
    exact ⟨hentry, of_decide_eq_true hkept⟩
  -- A token that is read now is held by no other call.
  have hheld {j : ℕ} {other : IdentityCall} {token : String} (hne : j ≠ k) (hother : s.calls[j]? = some other)
      (h : other.heldToken = some token) (h' : call'.heldToken = some token) : False := by
    rcases hmove.held_cases h' with hbefore | ⟨⟨newPasswordHash, before, rfl⟩, -⟩
    · exact hne (hs.held_once hother hcall h hbefore)
    · exact of_decide_eq_true hmay other (List.mem_of_getElem? hother) h
  refine ⟨hwf.write hcall hmove, ?_, ?_, ?_, ?_, ?_, ?_, ?_⟩
  · intro other c hother hclosing
    rcases hmem hother with rfl | hother
    · rcases hmove.closing_cases hclosing with ⟨token, newPasswordHash, now, rfl, hseen, hrevoke⟩ |
        ⟨c₀, hclosing₀, hc, hsub⟩
      · have hlisted := closes_listed (hs.before_le hold rfl) (hs.instant_le hold rfl) (of_decide_eq_true hmay)
        have hrotated {sessionId : Uuid} : sessionId ∉ other.rotated := by
          intro hid
          rcases hmove.rotated_cases hid with hid | ⟨_, _, _, _, h, -⟩
          · cases hid
          · cases h
        have hclosed := hlisted.write hwf hcall hmove (fun _ ↦ hrotated) fun _ hid ↦ .inl hid
        rw [← hseen, ← hrevoke] at hclosed
        exact hclosed
      · have hclosed := (hs.closes hold hclosing₀).write hwf hcall hmove
          ((hs.closes hold hclosing₀).not_rotated hwf hold hclosing₀ hcall hmove hmay) hsub
        rw [← hc] at hclosed
        exact hclosed
    · have hcloses := hs.closes hother hclosing
      exact hcloses.write hwf hcall hmove (hcloses.not_rotated hwf hother hclosing hcall hmove hmay)
        fun _ hid ↦ .inl hid
  · intro other n hother hbefore
    have hlength : s.sessions.length ≤ (s.write k call' w).sessions.length := by
      rw [IdentityState.write, List.length_append, List.length_map]
      exact Nat.le_add_right _ _
    refine le_trans ?_ hlength
    rcases hmem hother with rfl | hother
    · exact hs.before_le hold (hmove.before_eq.symm.trans hbefore)
    · exact hs.before_le hother hbefore
  · intro other now hother hinstant
    rcases hmem hother with rfl | hother
    · rcases hmove.instant_cases hinstant with hbefore | rfl
      · exact hs.instant_le hold hbefore
      · exact le_refl _
    · exact hs.instant_le hother hinstant
  · intro other token hother hspent entry h
    obtain ⟨hin, hkept⟩ := hentry h
    rcases hmem hother with rfl | hother
    · intro heq
      rw [heq] at hkept
      exact hkept (hmove.spent_cases hspent).2
    · exact hs.spent_gone hother hspent entry hin
  · intro other other' token hother hother' h h'
    have hin : ∀ entry ∈ s.resetTokens, entry.1 = token → other' ∈ s.calls → False :=
      fun entry hentry heq hmem' ↦ hs.spent_gone hmem' h' entry hentry heq
    obtain ⟨j, hj⟩ := List.mem_iff_getElem?.1 hother
    rcases hmem hother' with rfl | hthere
    · -- The call that has returned held the token before, and it holds none now.
      rcases calls_write hcall hj with ⟨-, rfl⟩ | ⟨hne, hbefore⟩
      · rw [IdentityCall.held_of_spent h'] at h
        cases h
      · exact hne (hs.held_once hbefore hcall h (hmove.spent_cases h').1)
    · rcases calls_write hcall hj with ⟨-, rfl⟩ | ⟨-, hbefore⟩
      · rcases hmove.held_cases h with hheld' | ⟨-, entry, hentry, heq⟩
        · exact hs.held_unspent hold hthere hheld' h'
        · exact hin entry hentry heq hthere
      · exact hs.held_unspent (List.mem_of_getElem? hbefore) hthere h h'
  · intro i j other other' token hother hother' h h'
    rcases calls_write hcall hother with ⟨rfl, rfl⟩ | ⟨hi, hbefore⟩ <;>
      rcases calls_write hcall hother' with ⟨rfl, rfl⟩ | ⟨hj, hbefore'⟩
    · rfl
    · exact (hheld hj hbefore' h' h).elim
    · exact (hheld hi hbefore h h').elim
    · exact hs.held_once hbefore hbefore' h h'
  · intro i j other other' token hother hother' h h'
    rcases calls_write hcall hother with ⟨rfl, rfl⟩ | ⟨hi, hbefore⟩ <;>
      rcases calls_write hcall hother' with ⟨rfl, rfl⟩ | ⟨hj, hbefore'⟩
    · rfl
    · exact absurd h' (hs.held_unspent hold (List.mem_of_getElem? hbefore') (hmove.spent_cases h).1)
    · exact absurd h (hs.held_unspent hold (List.mem_of_getElem? hbefore) (hmove.spent_cases h').1)
    · exact hs.spent_once hbefore hbefore' h h'

/-- **Every undisturbed step keeps the resets.** -/
theorem Resets.step (hs : s.Resets) (hundisturbed : s.Undisturbed a) (h : IdentityStep world s a t) :
    t.Resets := by
  have ht := hs.wellFormed.step h
  cases h with
  | start request =>
    refine hs.of_calls ht rfl (le_refl _) (fun _ h ↦ h) (fun k call hcall ↦ ?_) fun call hcall n hbefore ↦ ?_
    · rcases lt_or_ge k s.calls.length with hlt | hge
      · exact .inl ((List.getElem?_append_left hlt).symm.trans hcall)
      · rw [List.getElem?_append_right hge] at hcall
        exact .inr (List.mem_singleton.1 (List.mem_of_getElem? hcall) ▸ request.idle_call _)
    · rcases List.mem_append.1 hcall with hcall | hcall
      · exact hs.before_le hcall hbefore
      · obtain rfl := List.mem_singleton.1 hcall
        cases request with
        | resetPassword => exact (Option.some.inj hbefore).ge
        | _ => exact nomatch hbefore
  | move hcall hmove =>
    refine hs.write hcall hmove ?_
    have hmay : (s.calls[_]?).all s.mayMove = true := hundisturbed
    rw [hcall] at hmay
    exact hmay
  | @fail k call hcall hlive =>
    refine hs.of_calls ht rfl (le_refl _) (fun _ h ↦ h) (fun j other hother ↦ ?_) fun other hother n hbefore ↦ ?_
    · by_cases hj : k = j
      · subst hj
        have hset := List.getElem?_set_self (a := call.failed) (List.getElem?_eq_some_iff.1 hcall).1
        exact .inr (Option.some.inj (hset.symm.trans hother) ▸ call.idle_failed)
      · exact .inl ((List.getElem?_set_ne hj).symm.trans hother)
    · rcases List.mem_or_eq_of_mem_set hother with hother | rfl
      · exact hs.before_le hother hbefore
      · have heq : call.failed.before = call.before := by cases call <;> rfl
        exact hs.before_le (List.mem_of_getElem? hcall) (heq.symm.trans hbefore)
  | tick hclock =>
    exact hs.of_calls ht rfl hclock (fun _ h ↦ h) (fun _ _ hcall ↦ .inl hcall) fun _ hcall _ ↦ hs.before_le hcall
  | expire token =>
    exact hs.of_calls ht rfl (le_refl _) (fun _ h ↦ (List.mem_filter.1 h).1) (fun _ _ hcall ↦ .inl hcall)
      fun _ hcall _ ↦ hs.before_le hcall

theorem Resets.initial (hs : (identityMachine world).init s) : s.Resets := by
  have hcalls : s.calls = [] := hs.2
  have hnone {call : IdentityCall} (hcall : call ∈ s.calls) : False := by
    rw [hcalls] at hcall
    exact List.not_mem_nil hcall
  exact ⟨.initial hs, fun hcall ↦ (hnone hcall).elim, fun hcall ↦ (hnone hcall).elim,
    fun hcall ↦ (hnone hcall).elim, fun hcall ↦ (hnone hcall).elim, fun hcall ↦ (hnone hcall).elim,
    fun hcall ↦ (hnone (List.mem_of_getElem? hcall)).elim, fun hcall ↦ (hnone (List.mem_of_getElem? hcall)).elim⟩

/-- What comes from a session that a reset has seen, it has seen. -/
theorem Resets.seenBy_of_descends (hs : s.Resets) (hcloses : s.Closes c) {i j : ℕ} {row row' : RefreshSession}
    (hseen : s.SeenBy c i row) (h : s.Descends i j) (hrow' : s.sessions[j]? = some row') :
    s.SeenBy c j row' := by
  induction h generalizing row' with
  | refl =>
    obtain rfl := Option.some.inj (hseen.row_eq.symm.trans hrow')
    exact hseen
  | @rotated j j' k parent successor refreshHash _ hparent hsuccessor hcall ih =>
    obtain rfl := Option.some.inj (hsuccessor.symm.trans hrow')
    have hseen' := ih hparent
    obtain ⟨-, i₀, j₀, x, y, -, hx, hy, hold, -, hnew, huser⟩ := hs.wellFormed.fits hcall
    have hx' := getElem?_issued hparent
    have hy' := getElem?_issued hsuccessor
    obtain rfl := hs.wellFormed.index_eq hx hx' hold
    obtain rfl := hs.wellFormed.index_eq hy hy' hnew
    obtain rfl := Option.some.inj (hx.symm.trans hx')
    obtain rfl := Option.some.inj (hy.symm.trans hy')
    exact ⟨hsuccessor, hcloses.confined hseen' (List.mem_of_getElem? hcall) hsuccessor,
      huser.trans hseen'.userId_eq⟩

/-- What holds of the resets is what they promise. -/
theorem Resets.close (hs : s.Resets) : s.ResetsClose where
  closed := by
    intro k before seen i j token newPasswordHash userId row row' hcall hbefore hrow huser hdescends hrow'
    have hcloses : s.Closes ⟨userId, before, seen, []⟩ := hs.closes (List.mem_of_getElem? hcall) rfl
    have hseen := hs.seenBy_of_descends hcloses ⟨hrow, hbefore.trans_le hcloses.before_le, huser⟩ hdescends hrow'
    exact ⟨fun hactive ↦ List.not_mem_nil (hcloses.covered hseen hactive), hcloses.unrotated hseen⟩
  once := hs.spent_once

/-- **Resets keep their promises** in every run in which none of them is disturbed. -/
theorem resets_close (world : IdentityWorld) {s : IdentityState}
    (hs : (identityMachine world).Reachable Undisturbed s) : s.ResetsClose :=
  (hs.invariant (I := Resets) (fun _ h ↦ .initial h)
    fun _ _ _ h hundisturbed hstep ↦ h.step hundisturbed (identityStep_cases hstep)).close

/-! ### Runs -/

/-- The user, who is signed in, resets the password. -/
def resetRun : List IdentityAction :=
  signInRun ++ .start (.resetPassword "r1" "changed") :: List.replicate 8 (.move 1 (2, "t2"))

theorem resetRun_isSome :
    ((identityMachine plainIdentityWorld).run Undisturbed oneUser resetRun).isSome = true := by
  decide +kernel

/-- The state after it. -/
def afterReset : IdentityState := Option.get _ resetRun_isSome

/-- The reset has returned, and the session is closed. -/
theorem resets_close_reset : afterReset.ResetsClose ∧
    afterReset.calls[1]? = some (.resetPassword "r1" "changed" 1 (.done "u1" 1)) :=
  ⟨resets_close plainIdentityWorld (reachable_run (by exact ⟨rfl, rfl⟩) resetRun_isSome), by decide +kernel⟩

/-- A `refresh` has rotated the session when the reset reads it, and commits before the reset updates it. -/
def acrossRun : List IdentityAction :=
  signInRun ++ .start (.refresh "t1") :: List.replicate 5 (.move 1 (2, "t2")) ++
    .start (.resetPassword "r1" "changed") :: List.replicate 5 (.move 2 (3, "t3")) ++
    .move 1 (2, "t2") :: List.replicate 3 (.move 2 (3, "t3"))

theorem acrossRun_isSome :
    ((identityMachine plainIdentityWorld).run anyStep oneUser acrossRun).isSome = true := by
  decide +kernel

/-- The state after it. -/
def afterAcross : IdentityState := Option.get _ acrossRun_isSome

/-- Two resets have read the token when the first one deletes it. -/
def twiceRun : List IdentityAction :=
  [.start (.resetPassword "r1" "first"), .start (.resetPassword "r1" "second"), .move 0 (1, "t1"),
    .move 1 (1, "t1")] ++ List.replicate 6 (.move 0 (1, "t1")) ++ List.replicate 6 (.move 1 (1, "t1"))

theorem twiceRun_isSome :
    ((identityMachine plainIdentityWorld).run anyStep oneUser twiceRun).isSome = true := by
  decide +kernel

/-- The state after it. -/
def afterTwice : IdentityState := Option.get _ twiceRun_isSome

/-- **A session stays open, and a token is used twice.** After the first run the reset has returned and the
successor of the session that there was is active; after the second one two resets with one token have
returned. -/
theorem resets_do_not_close :
    ((identityMachine plainIdentityWorld).Reachable anyStep afterAcross ∧ ¬afterAcross.ResetsClose) ∧
      (identityMachine plainIdentityWorld).Reachable anyStep afterTwice ∧ ¬afterTwice.ResetsClose := by
  refine ⟨⟨reachable_run (by exact ⟨rfl, rfl⟩) acrossRun_isSome, fun hclose ↦ ?_⟩,
    reachable_run (by exact ⟨rfl, rfl⟩) twiceRun_isSome, fun hclose ↦ ?_⟩
  · have hold : afterAcross.sessions[0]? = some ⟨1, "u1", "t1", true, timedelta 2592000⟩ := by decide +kernel
    have hnew : afterAcross.sessions[1]? = some ⟨2, "u1", "t2", false, timedelta 2592000⟩ := by decide +kernel
    have hrefresh : afterAcross.calls[1]? = some (.refresh "t1" (.done 1 2)) := by decide +kernel
    have hreset : afterAcross.calls[2]? = some (.resetPassword "r1" "changed" 1 (.done "u1" 1)) := by
      decide +kernel
    have hdescends : afterAcross.Descends 0 1 := .rotated .refl hold hnew hrefresh
    have hinactive := (hclose.closed hreset Nat.zero_lt_one hold rfl hdescends hnew).1
    exact hinactive (by decide +kernel)
  · have hfirst : afterTwice.calls[0]? = some (.resetPassword "r1" "first" 0 (.done "u1" 0)) := by
      decide +kernel
    have hsecond : afterTwice.calls[1]? = some (.resetPassword "r1" "second" 0 (.done "u1" 0)) := by
      decide +kernel
    exact absurd (hclose.once hfirst hsecond rfl rfl) Nat.zero_ne_one

end IdentityState

end GenericApp
