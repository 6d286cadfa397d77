import GenericApp.Core.RateLimit
import GenericApp.Identity.IdentityService

/-!
# Signing up and in, and the links that are mailed

The routes `sign_up`, `sign_in`, `resend_verification` and `forgot_password`, with the calls of
`IdentityService` behind them. A route counts the attempt, calls the service, and makes a response of what
the service returns or raises.

Redis answers, and the database fails only where a row does not fit its columns. The hashing of passwords
rejects some of them, and what is asked of the platform, the name of the application and the texts of a
mail, may raise: both are parameters here.
-/

namespace GenericApp

open Py

/-! ### The world -/

/-- `User`. `Hash` is what the hashing of passwords makes. -/
structure Account (Hash : Type) where
  id : String
  email : String
  passwordHash : Hash
  fullName : Option String
  isActive : Bool := true
  isVerified : Bool := false
  isAdmin : Bool := false
  mfaEnabled : Bool := false
  mfaSecret : Option String := none

/-- An email in the queue. -/
structure QueuedEmail where
  to' : String
  subject : String
  htmlBody : String
  textBody : Option String
  operationId : String
deriving DecidableEq

/-- Subject, HTML and text of a mail. -/
abbrev Letter := String × String × Option String

/-- What the service is configured with, and what it asks others for. -/
structure AuthWorld (Hash : Type) where
  requireEmailVerification : Bool
  adminSignupInviteCode : String
  authFailureLimit : ℤ
  authFailureWindowSeconds : ℤ
  verificationTokenTtl : ℤ
  passwordResetTokenTtl : ℤ
  refreshTokenExpireDays : ℤ
  frontendUrl : String
  /-- `settings.is_production and settings.CELERY_TASK_ALWAYS_EAGER` -/
  queueForbidden : Bool
  /-- `hash_password_async`, with none where it raises. -/
  hashPassword : String → Option Hash
  /-- `verify_password_async` -/
  verifyPassword : String → Hash → Option Bool
  hashToken : String → String
  /-- `pyotp.TOTP(secret).verify(code, valid_window=1)` -/
  verifyTotp : String → String → DateTime → Bool
  /-- `import pyotp` succeeds. -/
  mfaAvailable : Bool
  /-- `platform.get_app_name()` -/
  getAppName : Except Raised String
  /-- `platform.render_email_template(key, context, fallback)` -/
  renderEmailTemplate : String → List (String × String) → Letter → Except Raised Letter

/-- The database, Redis and the queue. Emails are unique. -/
structure AuthState (Hash : Type) where
  users : String → Option (Account Hash)
  /-- The name of a personal organization, and its owner. -/
  organizations : List (String × String)
  sessions : List RefreshSession
  counters : RateCounters
  tokens : ExpiringStore String String
  emails : List QueuedEmail

/-- What a request finds: its host, the time, and values made up for it. -/
structure AuthContext where
  clientHost : Option String
  now : DateTime
  token : String
  newId : String
  sessionId : Uuid

/-! ### Texts -/

/-- `urllib.parse.quote_plus` -/
def quotePlus (s : String) : String :=
  String.join <| s.toUTF8.toList.map fun byte ↦
    let c := Char.ofNat byte.toNat
    if byte < 128 && (c.isAlphanum || c ∈ "_.-~".toList) then c.toString
    else if byte = 32 then "+"
    else "%" ++ String.ofList ((Nat.toDigits 16 (256 + byte.toNat)).tail.map Char.toUpper)

/-- `urllib.parse.urlencode` -/
def urlencode (query : List (String × String)) : String :=
  "&".intercalate (query.map fun (key, value) ↦ quotePlus key ++ "=" ++ quotePlus value)

/-- `secrets.compare_digest(a, b)`, which takes ASCII only. -/
def compareDigest (a b : String) : Option Bool :=
  if a.toList.all (fun c ↦ c.toNat < 128) && b.toList.all (fun c ↦ c.toNat < 128) then some (a = b) else none

/-- A text that fits `String(255)`. -/
def fitsColumn (s : String) : Bool := s.length ≤ 255 && s.toList.all fun c ↦ c.toNat ≠ 0

section Service

variable {Hash : Type} (w : AuthWorld Hash) (s : AuthState Hash) (ctx : AuthContext)

/-! ### Links that are mailed -/

/-- A link that is mailed, and how long its token is good. -/
structure MailedLink where
  tokenPrefix : String
  ttl : ℤ
  templateKey : String
  actionUrl : String
  fallback : Letter
  operation : String

/-- The link of a verification email. -/
def verificationLink (email : String) : MailedLink :=
  let link := w.frontendUrl ++ "/verify-email?" ++ urlencode [("token", ctx.token), ("email", email)]
  { tokenPrefix := "verify:"
    ttl := w.verificationTokenTtl
    templateKey := "auth.verify_email"
    actionUrl := link
    fallback := ("Verify your email address",
      "<p>Thanks for signing up. Click the link below to verify your email:</p>" ++
        "<p><a href=\"" ++ link ++ "\">" ++ link ++ "</a></p>" ++ "<p>This link expires in 24 hours.</p>",
      some ("Thanks for signing up.\n" ++ "Verify your email: " ++ link ++ "\n" ++
        "This link expires in 24 hours."))
    operation := "email:verify:" }

/-- The link of a password reset. -/
def resetLink : MailedLink :=
  let link := w.frontendUrl ++ "/reset-password?token=" ++ ctx.token
  { tokenPrefix := "pwd_reset:"
    ttl := w.passwordResetTokenTtl
    templateKey := "auth.reset_password"
    actionUrl := link
    fallback := ("Reset your password",
      "<p>We received a request to reset your password. Click the link below:</p>" ++
        "<p><a href=\"" ++ link ++ "\">" ++ link ++ "</a></p>" ++
        "<p>This link expires in 1 hour." ++ " If you did not request this, ignore this email.</p>",
      some ("We received a request to reset your password.\n" ++ "Reset link: " ++ link ++ "\n" ++
        "This link expires in 1 hour. If you did not request this, ignore this email."))
    operation := "email:reset:" }

/-- The mail with a link. -/
def renderLink (email : String) (mailed : MailedLink) : Except Raised Letter :=
  match w.getAppName with
  | .error raised => .error raised
  | .ok appName =>
    w.renderEmailTemplate mailed.templateKey
      [("app_name", appName), ("recipient_email", email), ("action_url", mailed.actionUrl)]
      mailed.fallback

/-- `queue_email` -/
def queueEmail (email : QueuedEmail) : Except Raised Unit × AuthState Hash :=
  if w.queueForbidden then (.error .other, s) else (.ok (), { s with emails := s.emails ++ [email] })

/-- Store the token, render the mail and queue it. `SETEX` refuses a lifetime that is not positive. -/
def mailLink (user : Account Hash) (mailed : MailedLink) : Except Raised Unit × AuthState Hash :=
  if mailed.ttl ≤ 0 then (.error .other, s)
  else
    let s := { s with
      tokens := s.tokens.put (mailed.tokenPrefix ++ w.hashToken ctx.token) user.id
        (some (ctx.now + timedelta mailed.ttl)) }
    match renderLink w user.email mailed with
    | .error raised => (.error raised, s)
    | .ok (subject, htmlBody, textBody) =>
      queueEmail w s ⟨user.email, subject, htmlBody, textBody,
        mailed.operation ++ user.id ++ ":" ++ w.hashToken ctx.token⟩

/-! ### The service -/

/-- `IdentityService.resend_verification` -/
def resendVerification (email : String) : Except Raised Unit × AuthState Hash :=
  if !w.requireEmailVerification then (.ok (), s)
  else
    match s.users email with
    | none => (.ok (), s)
    | some user =>
      if user.isVerified then (.ok (), s) else mailLink w s ctx user (verificationLink w ctx user.email)

/-- `IdentityService.forgot_password` -/
def forgotPassword (email : String) : Except Raised Unit × AuthState Hash :=
  match s.users email with
  | none => (.ok (), s)
  | some user => mailLink w s ctx user (resetLink w ctx)

/-- Whether the code makes an administrator. -/
def admitInvite (adminInviteCode : Option String) : Except Raised Bool :=
  let inviteCode := strip (adminInviteCode.getD "")
  let configuredInviteCode := strip w.adminSignupInviteCode
  if inviteCode = "" then .ok false
  else if configuredInviteCode = "" then .error (.http { statusCode := 403, detail := "Invalid admin invite code" })
  else
    match compareDigest inviteCode configuredInviteCode with
    | none => .error .other
    | some false => .error (.http { statusCode := 403, detail := "Invalid admin invite code" })
    | some true => .ok true

/-- `create_user`, with a failure of the statement if the row does not fit. -/
def createUser (user : Account Hash) : Except Raised Unit × AuthState Hash :=
  if fitsColumn user.email && user.fullName.all fitsColumn then
    (.ok (), { s with
      users := Function.update s.users user.email (some user)
      organizations := s.organizations ++ [(slice 255 (strip (orStr user.fullName user.email)), user.id)] })
  else (.error .other, s)

/-- `IdentityService.sign_up` -/
def signUp (email password : String) (fullName adminInviteCode : Option String) :
    Except Raised (Option (Account Hash)) × AuthState Hash :=
  match s.users email with
  | some existing =>
    if w.requireEmailVerification && !existing.isVerified then
      let (result, s) := resendVerification w s ctx email
      (result.map fun _ ↦ none, s)
    else (.ok none, s)
  | none =>
    match admitInvite w adminInviteCode with
    | .error raised => (.error raised, s)
    | .ok isAdmin =>
      match w.hashPassword password with
      | none => (.error .valueError, s)
      | some passwordHash =>
        let user : Account Hash :=
          { id := ctx.newId
            email := email
            passwordHash := passwordHash
            fullName := fullName
            isAdmin := isAdmin
            isVerified := !w.requireEmailVerification }
        match createUser s user with
        | (.error raised, s) => (.error raised, s)
        | (.ok (), s) =>
          if w.requireEmailVerification then
            let (result, s) := mailLink w s ctx user (verificationLink w ctx user.email)
            (result.map fun _ ↦ some user, s)
          else (.ok (some user), s)

/-- Whether a code is there and right. -/
def mfaPassed (mfaCode mfaSecret : Option String) : Bool :=
  match given mfaCode, given mfaSecret with
  | some code, some secret => w.verifyTotp secret code ctx.now
  | _, _ => false

/-- `IdentityService.sign_in` -/
def signInService (email password : String) (mfaCode : Option String) :
    Except Raised (Account Hash × RefreshSession) × AuthState Hash :=
  let invalid := Raised.http { statusCode := 401, detail := "Invalid credentials" }
  match s.users email with
  | none => (.error invalid, s)
  | some user =>
    match w.verifyPassword password user.passwordHash with
    | none => (.error .valueError, s)
    | some false => (.error invalid, s)
    | some true =>
      if !user.isActive then (.error (.http { statusCode := 403, detail := "Account disabled" }), s)
      else if w.requireEmailVerification && !user.isVerified then
        (.error (.http { statusCode := 403, detail := "Verify your email before signing in" }), s)
      else if user.mfaEnabled && !w.mfaAvailable then (.error (.http { statusCode := 501, detail := "MFA not available" }), s)
      else if user.mfaEnabled && !mfaPassed w ctx mfaCode user.mfaSecret then
        (.error (.http { statusCode := 401, detail := "Invalid multi-factor authentication code" }), s)
      else
        let session : RefreshSession :=
          { id := ctx.sessionId
            userId := user.id
            tokenHash := w.hashToken ctx.token
            expiresAt := ctx.now + timedelta (w.refreshTokenExpireDays * 86400) }
        (.ok (user, session), { s with sessions := s.sessions ++ [session] })

/-! ### The routes -/

/-- The body of a request. -/
inductive AuthRequest
  | signUp (email password : String) (fullName adminInviteCode : Option String)
  | signIn (email password : String) (mfaCode : Option String)
  | resendVerification (email : String)
  | forgotPassword (email : String)

/-- The address that a request names. -/
def AuthRequest.email : AuthRequest → String
  | signUp email _ _ _ | signIn email _ _ | resendVerification email | forgotPassword email => email

/-- The host of the client. -/
def AuthContext.host (ctx : AuthContext) : String := ctx.clientHost.getD "unknown"

/-- `AuthUserResponse` -/
structure AuthUserResponse where
  id : String
  email : String
  fullName : Option String
  isVerified : Bool
  isAdmin : Bool
  mfaEnabled : Bool

/-- `_build_user` -/
def buildUser {Hash : Type} (user : Account Hash) : AuthUserResponse :=
  ⟨user.id, user.email, user.fullName, user.isVerified, user.isAdmin, user.mfaEnabled⟩

/-- A response; one to a sign-in has the user in its body, and the session in its cookies. -/
abbrev AuthResponse := HttpResponse × Option (AuthUserResponse × RefreshSession)

/-- The response to what a service has returned or raised. -/
def respondWith {α : Type} (success : HttpResponse) (result : Except Raised α) : AuthResponse :=
  match result with
  | .error raised => (raised.response, none)
  | .ok _ => (success, none)

/-- `POST /sign-up`, once the attempt is counted. -/
def serveSignUp (email password : String) (fullName adminInviteCode : Option String) :
    AuthResponse × AuthState Hash :=
  let (result, s) := signUp w s ctx email password fullName adminInviteCode
  let detail :=
    if w.requireEmailVerification then
      "If the account can be created, a verification email will be sent shortly."
    else "If the account can be created, you can sign in shortly."
  (respondWith ⟨202, some detail, []⟩ result, s)

/-- `POST /sign-in`, once the attempt is counted. -/
def serveSignIn (email password : String) (mfaCode : Option String) : AuthResponse × AuthState Hash :=
  let failureKey := "rate_limit:auth_fail:" ++ ctx.host ++ ":" ++ email
  match enforceRateLimit s.counters failureKey ctx.now w.authFailureLimit with
  | .error raised => ((raised.response, none), s)
  | .ok () =>
    match signInService w s ctx email password mfaCode with
    | (.error raised, s) =>
      let failed := match raised with
        | .http exc => exc.statusCode = 401 || exc.statusCode = 403
        | _ => false
      let counters :=
        if failed then incrementRateLimit s.counters failureKey ctx.now w.authFailureWindowSeconds
        else s.counters
      ((raised.response, none), { s with counters := counters })
    | (.ok (user, session), s) =>
      ((⟨200, none, []⟩, some (buildUser user, session)),
        { s with counters := clearRateLimit s.counters failureKey })

/-- `POST /resend-verification`, once the attempt is counted. -/
def serveResendVerification (email : String) : AuthResponse × AuthState Hash :=
  let (result, s) := resendVerification w s ctx email
  (respondWith ⟨204, none, []⟩ result, s)

/-- `POST /forgot-password`, once the attempt is counted. -/
def serveForgotPassword (email : String) : AuthResponse × AuthState Hash :=
  let (result, s) := forgotPassword w s ctx email
  (respondWith ⟨204, none, []⟩ result, s)

/-- A request, once the attempt is counted. -/
def serveCounted : AuthRequest → AuthResponse × AuthState Hash
  | .signUp email password fullName adminInviteCode =>
    serveSignUp w s ctx email password fullName adminInviteCode
  | .signIn email password mfaCode => serveSignIn w s ctx email password mfaCode
  | .resendVerification email => serveResendVerification w s ctx email
  | .forgotPassword email => serveForgotPassword w s ctx email

/-- The counter of a request, its limit and its window. -/
def AuthRequest.attempts (ctx : AuthContext) : AuthRequest → String × ℤ × ℤ
  | signUp email _ _ _ => ("rate_limit:signup:" ++ ctx.host ++ ":" ++ email, 5, 3600)
  | signIn email _ _ => ("rate_limit:auth:" ++ ctx.host ++ ":" ++ email, 10, 60)
  | resendVerification _ => ("rate_limit:resend:" ++ ctx.host, 3, 300)
  | forgotPassword email => ("rate_limit:forgot:" ++ ctx.host ++ ":" ++ email, 5, 300)

/-- What counting the attempt gives. -/
def counted (request : AuthRequest) : Except Raised Unit × RateCounters :=
  let (key, maxAttempts, windowSeconds) := request.attempts ctx
  checkRateLimit s.counters key ctx.now maxAttempts windowSeconds

/-- The route of a request. -/
def serveAuth (request : AuthRequest) : AuthResponse × AuthState Hash :=
  match counted s ctx request with
  | (.error raised, counters) => ((raised.response, none), { s with counters := counters })
  | (.ok (), counters) => serveCounted w { s with counters := counters } ctx request

end Service

end GenericApp
