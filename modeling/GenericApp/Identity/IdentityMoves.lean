import GenericApp.Identity.IdentityService

/-!
# The moves of a call

`IdentityMove` lists what a call can do in one statement, with the guard of each. From the list come the facts
that every invariant of the sessions uses: what a call writes it has locked or inserted before
(`IdentityMove.revoked_subset`, `IdentityMove.created_eq`), it locks what no other call has locked
(`IdentityMove.locks_subset`), and it inserts what is unused (`IdentityMove.pending_fresh`).
-/

namespace GenericApp

open Machine Py

section Moves

variable (world : IdentityWorld) (s : IdentityState) (k : ℕ) (fresh : Uuid × String)

/-- What the call numbered `k` can do. -/
inductive IdentityMove : IdentityCall → IdentityCall → IdentityWrites → Prop
  | signInRaised {email password : String} {mfaCode : Option String} {error : IdentityError} :
      IdentityMove (.signIn email password mfaCode .started) (.signIn email password mfaCode (.raised error)) {}
  | admitted {email password : String} {mfaCode : Option String} {userId : String} :
      IdentityMove (.signIn email password mfaCode .started)
        (.signIn email password mfaCode (.admitted userId)) {}
  | signInInserted {email password : String} {mfaCode : Option String} {userId : String}
      (hunused : s.Unused fresh) :
      IdentityMove (.signIn email password mfaCode (.admitted userId))
        (.signIn email password mfaCode (.inserted (s.newSession world fresh userId))) {}
  | signInDone {email password : String} {mfaCode : Option String} {session : RefreshSession} :
      IdentityMove (.signIn email password mfaCode (.inserted session))
        (.signIn email password mfaCode (.done session.id)) { created := [session] }
  | refreshRaised {refreshHash : String} {stage : RefreshStage} {error : IdentityError}
      (hlive : (IdentityCall.refresh refreshHash stage).ended = false) :
      IdentityMove (.refresh refreshHash stage) (.refresh refreshHash (.raised error)) {}
  | found {refreshHash : String} {session : RefreshSession} (hread : s.sessionByHash refreshHash = some session)
      (hactive : session.isRevoked = false) (hexpires : s.clock ≤ session.expiresAt) :
      IdentityMove (.refresh refreshHash .started) (.refresh refreshHash (.found session)) {}
  | checked {refreshHash : String} {old : RefreshSession} :
      IdentityMove (.refresh refreshHash (.found old)) (.refresh refreshHash (.checked old)) {}
  | rotating {refreshHash : String} {old : RefreshSession} :
      IdentityMove (.refresh refreshHash (.checked old)) (.refresh refreshHash (.rotating old s.clock)) {}
  | rotated {refreshHash : String} {old session : RefreshSession} {now : DateTime}
      (hmem : session ∈ s.sessions) (hrotates : Rotates refreshHash old now session)
      (hunlocked : s.unlocked k old.id = true) :
      IdentityMove (.refresh refreshHash (.rotating old now)) (.refresh refreshHash (.rotated old)) {}
  | refreshInserted {refreshHash : String} {old : RefreshSession} (hunused : s.Unused fresh) :
      IdentityMove (.refresh refreshHash (.rotated old))
        (.refresh refreshHash (.inserted old (s.newSession world fresh old.userId))) {}
  | refreshDone {refreshHash : String} {old new : RefreshSession} :
      IdentityMove (.refresh refreshHash (.inserted old new)) (.refresh refreshHash (.done old.id new.id))
        { revoked := [old.id], created := [new] }
  | logoutNothing {refreshHash : String} {stage : LogoutStage} :
      IdentityMove (.logout refreshHash stage) (.logout refreshHash .done) {}
  | logoutFound {refreshHash : String} {session : RefreshSession} :
      IdentityMove (.logout refreshHash .started) (.logout refreshHash (.found session)) {}
  | logoutRevoked {refreshHash : String} {session : RefreshSession}
      (hunlocked : s.unlocked k session.id = true) :
      IdentityMove (.logout refreshHash (.found session)) (.logout refreshHash (.revoked session)) {}
  | logoutDone {refreshHash : String} {session : RefreshSession} :
      IdentityMove (.logout refreshHash (.revoked session)) (.logout refreshHash .done)
        { revoked := [session.id] }
  | resetRaised {token newPasswordHash : String} {before : ℕ} {stage : ResetStage} {error : IdentityError}
      (hstage : stage = .started ∨ ∃ userId, stage = .claimed userId) :
      IdentityMove (.resetPassword token newPasswordHash before stage)
        (.resetPassword token newPasswordHash before (.raised error)) {}
  | claimed {token newPasswordHash : String} {before : ℕ} {userId : String}
      (htoken : s.resetUser token = some userId) :
      IdentityMove (.resetPassword token newPasswordHash before .started)
        (.resetPassword token newPasswordHash before (.claimed userId)) {}
  | resetFound {token newPasswordHash : String} {before : ℕ} {userId : String} :
      IdentityMove (.resetPassword token newPasswordHash before (.claimed userId))
        (.resetPassword token newPasswordHash before (.found userId)) {}
  | listing {token newPasswordHash : String} {before : ℕ} {userId : String} :
      IdentityMove (.resetPassword token newPasswordHash before (.found userId))
        (.resetPassword token newPasswordHash before (.listing userId s.clock)) {}
  | flushed {token newPasswordHash : String} {before : ℕ} {userId : String} {now : DateTime}
      (hunlocked : s.userUnlocked k userId = true) :
      IdentityMove (.resetPassword token newPasswordHash before (.listing userId now))
        (.resetPassword token newPasswordHash before (.flushed userId now)) {}
  | listed {token newPasswordHash : String} {before : ℕ} {userId : String} {now : DateTime} :
      IdentityMove (.resetPassword token newPasswordHash before (.flushed userId now))
        (.resetPassword token newPasswordHash before
          (.revoking userId s.sessions.length (s.activeSessions userId now) [])) {}
  | updated {token newPasswordHash : String} {before : ℕ} {userId : String} {seen : ℕ} {sessionId : Uuid}
      {remaining revoked : List Uuid} (hunlocked : s.unlocked k sessionId = true) :
      IdentityMove (.resetPassword token newPasswordHash before
          (.revoking userId seen (sessionId :: remaining) revoked))
        (.resetPassword token newPasswordHash before (.revoking userId seen remaining (sessionId :: revoked))) {}
  | committed {token newPasswordHash : String} {before : ℕ} {userId : String} {seen : ℕ} {revoked : List Uuid} :
      IdentityMove (.resetPassword token newPasswordHash before (.revoking userId seen [] revoked))
        (.resetPassword token newPasswordHash before (.committed userId seen))
        { revoked := revoked, password := some (userId, newPasswordHash) }
  | resetDone {token newPasswordHash : String} {before : ℕ} {userId : String} {seen : ℕ} :
      IdentityMove (.resetPassword token newPasswordHash before (.committed userId seen))
        (.resetPassword token newPasswordHash before (.done userId seen)) { deletedToken := some token }

variable {world s k fresh}

theorem identityMove_of_moveSignIn {email password : String} {mfaCode : Option String}
    {stage stage' : SignInStage} {w : IdentityWrites}
    (h : moveSignIn world s fresh email password mfaCode stage = some (stage', w)) :
    IdentityMove world s k fresh (.signIn email password mfaCode stage) (.signIn email password mfaCode stage')
      w := by
  cases stage with
  | started =>
    rw [moveSignIn] at h
    split at h
    · obtain ⟨rfl, rfl⟩ := Prod.mk.inj (Option.some.inj h)
      exact .signInRaised
    · obtain ⟨rfl, rfl⟩ := Prod.mk.inj (Option.some.inj h)
      exact .admitted
  | admitted userId =>
    rw [moveSignIn] at h
    split at h
    · next hunused =>
      obtain ⟨rfl, rfl⟩ := Prod.mk.inj (Option.some.inj h)
      exact .signInInserted hunused
    · exact nomatch h
  | inserted session =>
    obtain ⟨rfl, rfl⟩ := Prod.mk.inj (Option.some.inj h)
    exact .signInDone
  | done _ => exact nomatch h
  | raised _ => exact nomatch h

/-- What passes the checks. -/
theorem refreshCheck_eq_ok {found : Option RefreshSession} {session : RefreshSession}
    (h : refreshCheck s found = .ok session) :
    found = some session ∧ session.isRevoked = false ∧ s.clock ≤ session.expiresAt := by
  rcases found with - | row
  · exact nomatch h
  · rw [refreshCheck] at h
    split at h
    · exact nomatch h
    · next hactive =>
      split at h
      · exact nomatch h
      · next hexpires =>
        obtain rfl := Except.ok.inj h
        exact ⟨rfl, Bool.eq_false_iff.2 hactive, not_lt.1 hexpires⟩

theorem identityMove_of_moveRefresh {refreshHash : String} {stage stage' : RefreshStage} {w : IdentityWrites}
    (h : moveRefresh world s k fresh refreshHash stage = some (stage', w)) :
    IdentityMove world s k fresh (.refresh refreshHash stage) (.refresh refreshHash stage') w := by
  cases stage with
  | started =>
    rw [moveRefresh] at h
    split at h
    · obtain ⟨rfl, rfl⟩ := Prod.mk.inj (Option.some.inj h)
      exact .refreshRaised rfl
    · next hcheck =>
      obtain ⟨rfl, rfl⟩ := Prod.mk.inj (Option.some.inj h)
      obtain ⟨hread, hactive, hexpires⟩ := refreshCheck_eq_ok hcheck
      exact .found hread hactive hexpires
  | found old =>
    rw [moveRefresh] at h
    split at h
    · obtain ⟨rfl, rfl⟩ := Prod.mk.inj (Option.some.inj h)
      exact .refreshRaised rfl
    · obtain ⟨rfl, rfl⟩ := Prod.mk.inj (Option.some.inj h)
      exact .checked
  | checked old =>
    obtain ⟨rfl, rfl⟩ := Prod.mk.inj (Option.some.inj h)
    exact .rotating
  | rotating old now =>
    rw [moveRefresh] at h
    split at h
    · obtain ⟨rfl, rfl⟩ := Prod.mk.inj (Option.some.inj h)
      exact .refreshRaised rfl
    · next hrow =>
      obtain ⟨session, hmem, hrotates⟩ := not_not.1 hrow
      split at h
      · next hunlocked =>
        obtain ⟨rfl, rfl⟩ := Prod.mk.inj (Option.some.inj h)
        exact .rotated hmem hrotates hunlocked
      · exact nomatch h
  | rotated old =>
    rw [moveRefresh] at h
    split at h
    · next hunused =>
      obtain ⟨rfl, rfl⟩ := Prod.mk.inj (Option.some.inj h)
      exact .refreshInserted hunused
    · exact nomatch h
  | inserted old new =>
    obtain ⟨rfl, rfl⟩ := Prod.mk.inj (Option.some.inj h)
    exact .refreshDone
  | done _ _ => exact nomatch h
  | raised _ => exact nomatch h

theorem identityMove_of_moveLogout {refreshHash : String} {stage stage' : LogoutStage} {w : IdentityWrites}
    (h : moveLogout s k refreshHash stage = some (stage', w)) :
    IdentityMove world s k fresh (.logout refreshHash stage) (.logout refreshHash stage') w := by
  cases stage with
  | started =>
    rw [moveLogout] at h
    split at h
    · obtain ⟨rfl, rfl⟩ := Prod.mk.inj (Option.some.inj h)
      exact .logoutNothing
    · obtain ⟨rfl, rfl⟩ := Prod.mk.inj (Option.some.inj h)
      exact .logoutFound
  | found session =>
    rw [moveLogout] at h
    split at h
    · obtain ⟨rfl, rfl⟩ := Prod.mk.inj (Option.some.inj h)
      exact .logoutNothing
    · split at h
      · next hunlocked =>
        obtain ⟨rfl, rfl⟩ := Prod.mk.inj (Option.some.inj h)
        exact .logoutRevoked hunlocked
      · exact nomatch h
  | revoked session =>
    obtain ⟨rfl, rfl⟩ := Prod.mk.inj (Option.some.inj h)
    exact .logoutDone
  | done => exact nomatch h
  | raised _ => exact nomatch h

theorem identityMove_of_moveReset {token newPasswordHash : String} {before : ℕ} {stage stage' : ResetStage}
    {w : IdentityWrites} (h : moveReset s k token newPasswordHash stage = some (stage', w)) :
    IdentityMove world s k fresh (.resetPassword token newPasswordHash before stage)
      (.resetPassword token newPasswordHash before stage') w := by
  cases stage with
  | started =>
    rw [moveReset] at h
    split at h
    · obtain ⟨rfl, rfl⟩ := Prod.mk.inj (Option.some.inj h)
      exact .resetRaised (.inl rfl)
    · next htoken =>
      obtain ⟨rfl, rfl⟩ := Prod.mk.inj (Option.some.inj h)
      exact .claimed htoken
  | claimed userId =>
    rw [moveReset] at h
    split at h
    · obtain ⟨rfl, rfl⟩ := Prod.mk.inj (Option.some.inj h)
      exact .resetRaised (.inr ⟨userId, rfl⟩)
    · obtain ⟨rfl, rfl⟩ := Prod.mk.inj (Option.some.inj h)
      exact .resetFound
  | found userId =>
    obtain ⟨rfl, rfl⟩ := Prod.mk.inj (Option.some.inj h)
    exact .listing
  | listing userId now =>
    rw [moveReset] at h
    split at h
    · next hunlocked =>
      obtain ⟨rfl, rfl⟩ := Prod.mk.inj (Option.some.inj h)
      exact .flushed hunlocked
    · exact nomatch h
  | flushed userId now =>
    obtain ⟨rfl, rfl⟩ := Prod.mk.inj (Option.some.inj h)
    exact .listed
  | revoking userId seen remaining revoked =>
    rcases remaining with - | ⟨sessionId, remaining⟩
    · obtain ⟨rfl, rfl⟩ := Prod.mk.inj (Option.some.inj h)
      exact .committed
    · rw [moveReset] at h
      split at h
      · next hunlocked =>
        obtain ⟨rfl, rfl⟩ := Prod.mk.inj (Option.some.inj h)
        exact .updated hunlocked
      · exact nomatch h
  | committed userId seen =>
    obtain ⟨rfl, rfl⟩ := Prod.mk.inj (Option.some.inj h)
    exact .resetDone
  | done _ _ => exact nomatch h
  | raised _ => exact nomatch h

/-- **What a call can do** is in the list. -/
theorem identityMove_of_move {call call' : IdentityCall} {w : IdentityWrites}
    (h : call.move world s k fresh = some (call', w)) : IdentityMove world s k fresh call call' w := by
  cases call with
  | signIn email password mfaCode stage =>
    obtain ⟨⟨stage', w'⟩, hstage, heq⟩ := Option.map_eq_some_iff.1 h
    obtain ⟨rfl, rfl⟩ := Prod.mk.inj heq
    exact identityMove_of_moveSignIn hstage
  | refresh refreshHash stage =>
    obtain ⟨⟨stage', w'⟩, hstage, heq⟩ := Option.map_eq_some_iff.1 h
    obtain ⟨rfl, rfl⟩ := Prod.mk.inj heq
    exact identityMove_of_moveRefresh hstage
  | logout refreshHash stage =>
    obtain ⟨⟨stage', w'⟩, hstage, heq⟩ := Option.map_eq_some_iff.1 h
    obtain ⟨rfl, rfl⟩ := Prod.mk.inj heq
    exact identityMove_of_moveLogout hstage
  | resetPassword token newPasswordHash before stage =>
    obtain ⟨⟨stage', w'⟩, hstage, heq⟩ := Option.map_eq_some_iff.1 h
    obtain ⟨rfl, rfl⟩ := Prod.mk.inj heq
    exact identityMove_of_moveReset hstage

/-! ### What a move writes and locks -/

variable {call call' : IdentityCall} {w : IdentityWrites}

/-- What is revoked was locked. -/
theorem IdentityMove.revoked_subset (h : IdentityMove world s k fresh call call' w) {sessionId : Uuid}
    (hid : sessionId ∈ w.revoked) : sessionId ∈ call.locks := by
  cases h with
  | refreshDone => exact hid
  | logoutDone => exact hid
  | committed => exact hid
  | _ => exact nomatch hid

/-- What is created was inserted. -/
theorem IdentityMove.created_eq (h : IdentityMove world s k fresh call call' w) :
    w.created = [] ∨ ∃ session, w.created = [session] ∧ call.pending = some session := by
  cases h with
  | signInDone => exact .inr ⟨_, rfl, rfl⟩
  | refreshDone => exact .inr ⟨_, rfl, rfl⟩
  | _ => exact .inl rfl

/-- What is locked was locked before, or locked by no other call. -/
theorem IdentityMove.locks_subset (h : IdentityMove world s k fresh call call' w) {sessionId : Uuid}
    (hid : sessionId ∈ call'.locks) : sessionId ∈ call.locks ∨ s.unlocked k sessionId = true := by
  cases h with
  | rotated hmem hrotates hunlocked =>
    obtain rfl := List.mem_singleton.1 hid
    exact .inr hunlocked
  | logoutRevoked hunlocked =>
    obtain rfl := List.mem_singleton.1 hid
    exact .inr hunlocked
  | updated hunlocked =>
    rcases List.mem_cons.1 hid with rfl | hid
    · exact .inr hunlocked
    · exact .inl hid
  | refreshInserted => exact .inl hid
  | _ => exact nomatch hid

/-- What is inserted is unused. -/
theorem IdentityMove.pending_fresh (h : IdentityMove world s k fresh call call' w) {session : RefreshSession}
    (hpending : call'.pending = some session) :
    s.Unused fresh ∧ session.id = fresh.1 ∧ session.tokenHash = fresh.2 ∧ session.isRevoked = false := by
  cases h with
  | signInInserted hunused =>
    obtain rfl := Option.some.inj hpending
    exact ⟨hunused, rfl, rfl, rfl⟩
  | refreshInserted hunused =>
    obtain rfl := Option.some.inj hpending
    exact ⟨hunused, rfl, rfl, rfl⟩
  | _ => exact nomatch hpending

/-- A call that has inserted a session has created none yet. -/
theorem IdentityMove.created_of_pending (h : IdentityMove world s k fresh call call' w)
    {session : RefreshSession} (hpending : call'.pending = some session) : w.created = [] := by
  cases h with
  | signInDone => exact nomatch hpending
  | refreshDone => exact nomatch hpending
  | _ => rfl

end Moves

/-! ### Steps -/

section Steps

variable {world : IdentityWorld} {s t : IdentityState} {a : IdentityAction}

/-- The steps of the machine. -/
inductive IdentityStep (world : IdentityWorld) (s : IdentityState) : IdentityAction → IdentityState → Prop
  | start (request : IdentityRequest) :
      IdentityStep world s (.start request) { s with calls := s.calls ++ [request.call s.sessions.length] }
  | move {k : ℕ} {fresh : Uuid × String} {call call' : IdentityCall} {w : IdentityWrites}
      (hcall : s.calls[k]? = some call) (hmove : IdentityMove world s k fresh call call' w) :
      IdentityStep world s (.move k fresh) (s.write k call' w)
  | fail {k : ℕ} {call : IdentityCall} (hcall : s.calls[k]? = some call) (hlive : call.ended = false) :
      IdentityStep world s (.fail k) { s with calls := s.calls.set k call.failed }
  | tick {now : DateTime} (hclock : s.clock ≤ now) : IdentityStep world s (.tick now) { s with clock := now }
  | expire (token : String) :
      IdentityStep world s (.expire token)
        { s with resetTokens := s.resetTokens.filter fun entry ↦ entry.1 ≠ token }

theorem identityStep_cases (h : identityStep world s a = some t) : IdentityStep world s a t := by
  cases a with
  | start request =>
    obtain rfl := Option.some.inj h
    exact .start request
  | move k fresh =>
    obtain ⟨call, hcall, h⟩ := Option.bind_eq_some_iff.1 h
    obtain ⟨⟨call', w⟩, hmove, rfl⟩ := Option.map_eq_some_iff.1 h
    exact .move hcall (identityMove_of_move hmove)
  | fail k =>
    obtain ⟨call, hcall, h⟩ := Option.bind_eq_some_iff.1 h
    split at h
    · exact nomatch h
    · next hlive =>
      obtain rfl := Option.some.inj h
      exact .fail hcall (Bool.eq_false_iff.2 hlive)
  | tick now =>
    rw [identityStep] at h
    split at h
    · next hclock =>
      obtain rfl := Option.some.inj h
      exact .tick hclock
    · exact nomatch h
  | expire token =>
    obtain rfl := Option.some.inj h
    exact .expire token

end Steps

end GenericApp
