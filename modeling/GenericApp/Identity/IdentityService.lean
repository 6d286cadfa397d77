import Mathlib.Data.List.Sort
import GenericApp.Foundation.Machine
import GenericApp.Workers.ApplicationJob

/-!
# Refresh sessions

The calls of the identity service that touch the sessions of a user: `sign_in`, `refresh`, `logout` and
`reset_password`. Each is a sequence of statements in a transaction of its own, and between any two of them
other calls move. A statement reads what is committed. An `UPDATE` waits for whoever has updated the row and
not come to an end, decides on the committed row and locks it. What a call has written is committed all at
once, or lost with the call.

The state is what is committed, the reset tokens in the cache, and for every call how far it has come. A call
may fail at any time, the clock never goes back, and the tokens and ids that are made up are new ones.
-/

namespace GenericApp

open Py

/-! ### Rows -/

/-- `User`, what these calls read of it. -/
structure IdentityUser where
  id : String
  email : String
  passwordHash : String
  isActive : Bool
  isVerified : Bool
  mfaEnabled : Bool
  mfaSecret : Option String

/-- `RefreshSession`, without the instant of its creation. -/
structure RefreshSession where
  id : Uuid
  userId : String
  tokenHash : String
  isRevoked : Bool := false
  expiresAt : DateTime
deriving DecidableEq

/-- The session is neither revoked nor expired. -/
def RefreshSession.Active (session : RefreshSession) (now : DateTime) : Prop :=
  session.isRevoked = false ∧ now < session.expiresAt

instance (session : RefreshSession) (now : DateTime) : Decidable (session.Active now) :=
  inferInstanceAs (Decidable (_ ∧ _))

/-- What the service is configured with, and what it asks others for. -/
structure IdentityWorld where
  verifyPassword : String → String → Bool
  /-- `pyotp.TOTP(secret).verify(code, valid_window=1)` -/
  verifyTotp : String → String → DateTime → Bool
  /-- `import pyotp` succeeds. -/
  mfaAvailable : Bool
  requireEmailVerification : Bool
  refreshTokenExpireDays : ℤ

/-- What the calls raise. -/
inductive IdentityError
  /-- 401 `Invalid credentials` -/
  | invalidCredentials
  /-- 403 `Account disabled` -/
  | accountDisabled
  /-- 403 `Verify your email before signing in` -/
  | emailNotVerified
  /-- 501 `MFA not available` -/
  | mfaNotAvailable
  /-- 401 `Invalid multi-factor authentication code` -/
  | invalidMfaCode
  /-- 401 `Invalid refresh token` -/
  | invalidRefreshToken
  /-- 401 `Refresh token expired` -/
  | refreshTokenExpired
  /-- 401 `User not found or disabled` -/
  | userNotFoundOrDisabled
  /-- 400 `Invalid or expired reset token` -/
  | invalidResetToken
  /-- 404 `User not found` -/
  | userNotFound
  /-- A statement has failed, or the process. -/
  | failed
deriving DecidableEq

/-! ### Calls -/

/-- What is asked for. -/
inductive IdentityRequest
  | signIn (email password : String) (mfaCode : Option String)
  | refresh (refreshHash : String)
  | logout (refreshHash : String)
  | resetPassword (token newPasswordHash : String)

/-- How far `sign_in` has come. -/
inductive SignInStage
  | started
  /-- The checks have passed. -/
  | admitted (userId : String)
  /-- The session is inserted. -/
  | inserted (session : RefreshSession)
  | done (session : Uuid)
  | raised (error : IdentityError)
deriving DecidableEq

/-- How far `refresh` has come. -/
inductive RefreshStage
  | started
  /-- The session is read, and neither revoked nor expired. -/
  | found (old : RefreshSession)
  /-- The user is read, and may go on. -/
  | checked (old : RefreshSession)
  /-- The `UPDATE` of `rotate_refresh_session` is built, with the instant that it compares with. -/
  | rotating (old : RefreshSession) (now : DateTime)
  /-- It has updated the row. -/
  | rotated (old : RefreshSession)
  /-- The successor is inserted. -/
  | inserted (old new : RefreshSession)
  | done (old new : Uuid)
  | raised (error : IdentityError)
deriving DecidableEq

/-- How far `logout` has come. -/
inductive LogoutStage
  | started
  | found (session : RefreshSession)
  /-- The row is updated. -/
  | revoked (session : RefreshSession)
  | done
  | raised (error : IdentityError)
deriving DecidableEq

/-- How far `reset_password` has come. -/
inductive ResetStage
  | started
  /-- The token is read. -/
  | claimed (userId : String)
  /-- The user is read and has the new password, which is not written yet. -/
  | found (userId : String)
  /-- `list_active_sessions` has taken the time, and is about to write the password before it reads. -/
  | listing (userId : String) (now : DateTime)
  /-- The password is written. -/
  | flushed (userId : String) (now : DateTime)
  /-- The sessions are read: those that are not updated yet, and those that are. `seen` is the number of
  sessions that there were. -/
  | revoking (userId : String) (seen : ℕ) (remaining revoked : List Uuid)
  | committed (userId : String) (seen : ℕ)
  | done (userId : String) (seen : ℕ)
  | raised (error : IdentityError)
deriving DecidableEq

/-- A call and how far it has come. With a call of `reset_password` goes the number of sessions that there
were when it started. -/
inductive IdentityCall
  | signIn (email password : String) (mfaCode : Option String) (stage : SignInStage)
  | refresh (refreshHash : String) (stage : RefreshStage)
  | logout (refreshHash : String) (stage : LogoutStage)
  | resetPassword (token newPasswordHash : String) (before : ℕ) (stage : ResetStage)
deriving DecidableEq

/-- A call that starts, when there are so many sessions. -/
def IdentityRequest.call (before : ℕ) : IdentityRequest → IdentityCall
  | signIn email password mfaCode => .signIn email password mfaCode .started
  | refresh refreshHash => .refresh refreshHash .started
  | logout refreshHash => .logout refreshHash .started
  | resetPassword token newPasswordHash => .resetPassword token newPasswordHash before .started

namespace IdentityCall

/-- The sessions that the call has updated and not committed. -/
def locks : IdentityCall → List Uuid
  | refresh _ (.rotated old) => [old.id]
  | refresh _ (.inserted old _) => [old.id]
  | logout _ (.revoked session) => [session.id]
  | resetPassword _ _ _ (.revoking _ _ _ revoked) => revoked
  | _ => []

/-- The user whose password the call has written and not committed. -/
def userLock : IdentityCall → Option String
  | resetPassword _ _ _ (.flushed userId _) => some userId
  | resetPassword _ _ _ (.revoking userId _ _ _) => some userId
  | _ => none

/-- The session that the call has inserted and not committed. -/
def pending : IdentityCall → Option RefreshSession
  | signIn _ _ _ (.inserted session) => some session
  | refresh _ (.inserted _ new) => some new
  | _ => none

/-- The call has come to its end. -/
def ended : IdentityCall → Bool
  | signIn _ _ _ (.done _) | signIn _ _ _ (.raised _) => true
  | refresh _ (.done _ _) | refresh _ (.raised _) => true
  | logout _ .done | logout _ (.raised _) => true
  | resetPassword _ _ _ (.done _ _) | resetPassword _ _ _ (.raised _) => true
  | _ => false

/-- The call fails. -/
def failed : IdentityCall → IdentityCall
  | signIn email password mfaCode _ => .signIn email password mfaCode (.raised .failed)
  | refresh refreshHash _ => .refresh refreshHash (.raised .failed)
  | logout refreshHash _ => .logout refreshHash (.raised .failed)
  | resetPassword token newPasswordHash before _ => .resetPassword token newPasswordHash before (.raised .failed)

end IdentityCall

/-! ### The state -/

/-- What is committed and in the cache, and the calls. -/
structure IdentityState where
  clock : DateTime
  users : List IdentityUser
  /-- The sessions, in the order in which they were committed. -/
  sessions : List RefreshSession
  /-- The user of every `pwd_reset:` token. -/
  resetTokens : List (String × String)
  calls : List IdentityCall

/-- What the end of a transaction writes, and the token that is deleted. -/
structure IdentityWrites where
  revoked : List Uuid := []
  created : List RefreshSession := []
  password : Option (String × String) := none
  deletedToken : Option String := none

namespace IdentityState

variable (s : IdentityState)

/-- `get_refresh_session_by_hash` -/
def sessionByHash (tokenHash : String) : Option RefreshSession :=
  s.sessions.find? fun session ↦ session.tokenHash = tokenHash

/-- `get_user_by_id` -/
def userById (userId : String) : Option IdentityUser := s.users.find? fun user ↦ user.id = userId

/-- `get_user_by_email` -/
def userByEmail (email : String) : Option IdentityUser := s.users.find? fun user ↦ user.email = email

/-- `redis_client.get` of a reset token -/
def resetUser (token : String) : Option String := given (s.resetTokens.lookup token)

/-- No other call has updated the session. -/
def unlocked (k : ℕ) (sessionId : Uuid) : Bool :=
  s.calls.zipIdx.all fun entry ↦ entry.2 = k ∨ sessionId ∉ entry.1.locks

/-- No other call has written the password of the user. -/
def userUnlocked (k : ℕ) (userId : String) : Bool :=
  s.calls.zipIdx.all fun entry ↦ entry.2 = k ∨ entry.1.userLock ≠ some userId

/-- The sessions that are inserted and not committed. -/
def pendingSessions : List RefreshSession := s.calls.filterMap IdentityCall.pending

/-- No session has the id or the token, and none that is inserted. -/
def Unused (fresh : Uuid × String) : Prop :=
  ∀ session ∈ s.sessions ++ s.pendingSessions, session.id ≠ fresh.1 ∧ session.tokenHash ≠ fresh.2

instance (fresh : Uuid × String) : Decidable (s.Unused fresh) := inferInstanceAs (Decidable (∀ _ ∈ _, _))

/-- The ids of the sessions of a user that are neither revoked nor expired, in the order in which they are
updated, which is that of their ids. -/
def activeSessions (userId : String) (now : DateTime) : List Uuid :=
  ((s.sessions.filter fun session ↦ session.userId = userId ∧ session.Active now).map
    RefreshSession.id).insertionSort (· ≤ ·)

/-- The row as the writes leave it. -/
def revokeIn (revoked : List Uuid) (session : RefreshSession) : RefreshSession :=
  if session.id ∈ revoked then { session with isRevoked := true } else session

/-- A call has moved, and has written this. -/
def write (k : ℕ) (call : IdentityCall) (w : IdentityWrites) : IdentityState where
  clock := s.clock
  users := s.users.map fun user ↦
    match w.password with
    | some (userId, passwordHash) => if user.id = userId then { user with passwordHash := passwordHash } else user
    | none => user
  sessions := s.sessions.map (revokeIn w.revoked) ++ w.created
  resetTokens := s.resetTokens.filter fun entry ↦ w.deletedToken ≠ some entry.1
  calls := s.calls.set k call

end IdentityState

/-! ### Moves -/

section Moves

variable (world : IdentityWorld) (s : IdentityState) (k : ℕ) (fresh : Uuid × String)

/-- `timedelta(days=settings.REFRESH_TOKEN_EXPIRE_DAYS)` from now -/
def IdentityState.newExpiry : DateTime := s.clock + timedelta (world.refreshTokenExpireDays * 86400)

/-- `create_refresh_session` -/
def IdentityState.newSession (userId : String) : RefreshSession where
  id := fresh.1
  userId := userId
  tokenHash := fresh.2
  expiresAt := s.newExpiry world

/-- The checks of `sign_in`. -/
def signInCheck (password : String) (mfaCode : Option String) :
    Option IdentityUser → Except IdentityError IdentityUser
  | none => .error .invalidCredentials
  | some user =>
    if !world.verifyPassword password user.passwordHash then .error .invalidCredentials
    else if !user.isActive then .error .accountDisabled
    else if world.requireEmailVerification && !user.isVerified then .error .emailNotVerified
    else if user.mfaEnabled then
      if !world.mfaAvailable then .error .mfaNotAvailable
      else
        match given mfaCode, given user.mfaSecret with
        | some code, some secret =>
          if world.verifyTotp secret code s.clock then .ok user else .error .invalidMfaCode
        | _, _ => .error .invalidMfaCode
    else .ok user

/-- `sign_in`, one statement further. -/
def moveSignIn (email password : String) (mfaCode : Option String) :
    SignInStage → Option (SignInStage × IdentityWrites)
  | .started =>
    match signInCheck world s password mfaCode (s.userByEmail email) with
    | .error error => some (.raised error, {})
    | .ok user => some (.admitted user.id, {})
  | .admitted userId =>
    if s.Unused fresh then some (.inserted (s.newSession world fresh userId), {}) else none
  | .inserted session => some (.done session.id, { created := [session] })
  | .done _ | .raised _ => none

/-- The checks of `refresh` on the session. -/
def refreshCheck : Option RefreshSession → Except IdentityError RefreshSession
  | none => .error .invalidRefreshToken
  | some session =>
    if session.isRevoked then .error .invalidRefreshToken
    else if session.expiresAt < s.clock then .error .refreshTokenExpired
    else .ok session

/-- The checks of `refresh` on the user. -/
def refreshUserCheck : Option IdentityUser → Except IdentityError Unit
  | none => .error .userNotFoundOrDisabled
  | some user =>
    if !user.isActive then .error .userNotFoundOrDisabled
    else if world.requireEmailVerification && !user.isVerified then .error .emailNotVerified
    else .ok ()

/-- The `WHERE` of `rotate_refresh_session`. -/
def Rotates (refreshHash : String) (old : RefreshSession) (now : DateTime) (session : RefreshSession) : Prop :=
  session.id = old.id ∧ session.tokenHash = refreshHash ∧ session.isRevoked = false ∧ now < session.expiresAt

instance (refreshHash : String) (old : RefreshSession) (now : DateTime) (session : RefreshSession) :
    Decidable (Rotates refreshHash old now session) := inferInstanceAs (Decidable (_ ∧ _))

/-- `refresh`, one statement further. -/
def moveRefresh (refreshHash : String) : RefreshStage → Option (RefreshStage × IdentityWrites)
  | .started =>
    match refreshCheck s (s.sessionByHash refreshHash) with
    | .error error => some (.raised error, {})
    | .ok session => some (.found session, {})
  | .found old =>
    match refreshUserCheck world (s.userById old.userId) with
    | .error error => some (.raised error, {})
    | .ok () => some (.checked old, {})
  | .checked old => some (.rotating old s.clock, {})
  | .rotating old now =>
    -- A row that is updated by another call and fits is waited for.
    if ¬∃ session ∈ s.sessions, Rotates refreshHash old now session then
      some (.raised .invalidRefreshToken, {})
    else if s.unlocked k old.id then some (.rotated old, {})
    else none
  | .rotated old =>
    if s.Unused fresh then some (.inserted old (s.newSession world fresh old.userId), {}) else none
  | .inserted old new => some (.done old.id new.id, { revoked := [old.id], created := [new] })
  | .done _ _ | .raised _ => none

/-- `logout`, one statement further. Where there is no such session, or it was read as revoked, there is nothing
to update. -/
def moveLogout (refreshHash : String) : LogoutStage → Option (LogoutStage × IdentityWrites)
  | .started =>
    match s.sessionByHash refreshHash with
    | none => some (.done, {})
    | some session => some (.found session, {})
  | .found session =>
    if session.isRevoked then some (.done, {})
    else if s.unlocked k session.id then some (.revoked session, {})
    else none
  | .revoked session => some (.done, { revoked := [session.id] })
  | .done | .raised _ => none

/-- `reset_password`, one statement further. -/
def moveReset (token newPasswordHash : String) : ResetStage → Option (ResetStage × IdentityWrites)
  | .started =>
    match s.resetUser token with
    | none => some (.raised .invalidResetToken, {})
    | some userId => some (.claimed userId, {})
  | .claimed userId =>
    match s.userById userId with
    | none => some (.raised .userNotFound, {})
    | some _ => some (.found userId, {})
  | .found userId => some (.listing userId s.clock, {})
  | .listing userId now => if s.userUnlocked k userId then some (.flushed userId now, {}) else none
  | .flushed userId now => some (.revoking userId s.sessions.length (s.activeSessions userId now) [], {})
  | .revoking userId seen (sessionId :: remaining) revoked =>
    if s.unlocked k sessionId then some (.revoking userId seen remaining (sessionId :: revoked), {}) else none
  | .revoking userId seen [] revoked =>
    some (.committed userId seen, { revoked := revoked, password := some (userId, newPasswordHash) })
  | .committed userId seen => some (.done userId seen, { deletedToken := some token })
  | .done _ _ | .raised _ => none

/-- A call, one statement further. -/
def IdentityCall.move : IdentityCall → Option (IdentityCall × IdentityWrites)
  | signIn email password mfaCode stage =>
    (moveSignIn world s fresh email password mfaCode stage).map
      (Prod.map (.signIn email password mfaCode) id)
  | refresh refreshHash stage => (moveRefresh world s k fresh refreshHash stage).map (Prod.map (.refresh refreshHash) id)
  | logout refreshHash stage => (moveLogout s k refreshHash stage).map (Prod.map (.logout refreshHash) id)
  | resetPassword token newPasswordHash before stage =>
    (moveReset s k token newPasswordHash stage).map (Prod.map (.resetPassword token newPasswordHash before) id)

end Moves

/-! ### The machine -/

/-- What may happen. -/
inductive IdentityAction
  | start (request : IdentityRequest)
  /-- A call executes its next statement. An id and a token are made up for it, in case it needs them. -/
  | move (k : ℕ) (fresh : Uuid × String)
  | fail (k : ℕ)
  | tick (now : DateTime)
  /-- A reset token runs out. -/
  | expire (token : String)

/-- One step. -/
def identityStep (world : IdentityWorld) (s : IdentityState) : IdentityAction → Option IdentityState
  | .start request => some { s with calls := s.calls ++ [request.call s.sessions.length] }
  | .move k fresh => s.calls[k]?.bind fun call ↦ (call.move world s k fresh).map fun r ↦ s.write k r.1 r.2
  | .fail k => s.calls[k]?.bind fun call ↦
    if call.ended then none else some { s with calls := s.calls.set k call.failed }
  | .tick now => if s.clock ≤ now then some { s with clock := now } else none
  | .expire token => some { s with resetTokens := s.resetTokens.filter fun entry ↦ entry.1 ≠ token }

/-- The service, with any users, any reset tokens and no session. -/
def identityMachine (world : IdentityWorld) : Machine IdentityState IdentityAction where
  init s := s.sessions = [] ∧ s.calls = []
  step := identityStep world

end GenericApp
