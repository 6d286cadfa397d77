import GenericApp.Identity.AuthRoutes

/-!
# Whether the answers tell who has an account

Two databases that differ in the account of one address, and a request that names the address. The answers
and the counters are the same for all such pairs, if the attempt is refused, or if nothing fails that is
done for some accounts only (`no_enumeration_iff`). For `sign_up` that is more than the mail: the invite code
is looked at after the address, so that a wrong one is refused for a new address and goes unnoticed for a
known one (`invite_code_tells`).
-/

namespace GenericApp

open Py

section Enumeration

variable {Hash : Type} (w : AuthWorld Hash) (s : AuthState Hash) (ctx : AuthContext)

/-! ### Two databases -/

/-- The database with this account, or none, under the address. -/
def AuthState.withAccount (email : String) (account : Option (Account Hash)) : AuthState Hash :=
  { s with users := Function.update s.users email account }

/-- An account that may be the one that the request names: the password of a sign-in is not its own. -/
def Admissible (request : AuthRequest) (account : Option (Account Hash)) : Prop :=
  ∀ user, account = some user → user.email = request.email ∧
    ∀ email password mfaCode, request = .signIn email password mfaCode →
      w.verifyPassword password user.passwordHash ≠ some true

/-- **The answer and the counters do not tell the accounts apart.** -/
def Indistinguishable (request : AuthRequest) : Prop :=
  ∀ x y, Admissible w request x → Admissible w request y →
    (serveAuth w (s.withAccount request.email x) ctx request).1 =
      (serveAuth w (s.withAccount request.email y) ctx request).1 ∧
    (serveAuth w (s.withAccount request.email x) ctx request).2.counters =
      (serveAuth w (s.withAccount request.email y) ctx request).2.counters

/-! ### The condition -/

/-- The attempt is refused: there have been too many, or for a sign-in too many failures. -/
def OverLimit : AuthRequest → Prop
  | .signIn email password mfaCode =>
    (counted s ctx (.signIn email password mfaCode)).1 ≠ .ok () ∨
      enforceRateLimit (counted s ctx (.signIn email password mfaCode)).2
        ("rate_limit:auth_fail:" ++ ctx.host ++ ":" ++ email) ctx.now w.authFailureLimit ≠ .ok ()
  | request => (counted s ctx request).1 ≠ .ok ()

/-- A mail with the link can be made and queued. -/
def Mailable (email : String) (mailed : MailedLink) : Prop :=
  0 < mailed.ttl ∧ (∃ letter, renderLink w email mailed = .ok letter) ∧ w.queueForbidden = false

/-- Nothing fails of what the request may lead to. -/
def NothingFails : AuthRequest → Prop
  | .signUp email password fullName adminInviteCode =>
    (∃ isAdmin, admitInvite w adminInviteCode = .ok isAdmin) ∧ w.hashPassword password ≠ none ∧
      fitsColumn email = true ∧ fullName.all fitsColumn = true ∧
      (w.requireEmailVerification = true → Mailable w email (verificationLink w ctx email))
  | .signIn _ password _ => ∀ hash, w.verifyPassword password hash ≠ none
  | .resendVerification email =>
    w.requireEmailVerification = true → Mailable w email (verificationLink w ctx email)
  | .forgotPassword email => Mailable w email (resetLink w ctx)

/-! ### What the service returns, and the counters -/

variable {w s ctx} {user : Account Hash} {mailed : MailedLink} {email password : String}
  {fullName adminInviteCode mfaCode : Option String}

theorem mailLink_counters : (mailLink w s ctx user mailed).2.counters = s.counters := by
  unfold mailLink
  split
  · rfl
  · dsimp only
    split
    · rfl
    · unfold queueEmail
      split <;> rfl

/-- **A mail is queued exactly if it can be made.** -/
theorem mailLink_fst_eq_ok_iff :
    (mailLink w s ctx user mailed).1 = .ok () ↔ Mailable w user.email mailed := by
  unfold mailLink Mailable
  split
  · next httl => exact iff_of_false (fun h ↦ by cases h) fun h ↦ absurd h.1 (Int.not_lt.2 httl)
  · next httl =>
    dsimp only
    split
    · next raised hrender =>
      refine iff_of_false (fun h ↦ by cases h) fun h ↦ ?_
      obtain ⟨letter, hletter⟩ := h.2.1
      cases hrender.symm.trans hletter
    · next subject htmlBody textBody hrender =>
      unfold queueEmail
      rcases hqueue : w.queueForbidden with - | -
      · exact iff_of_true rfl ⟨Int.not_le.1 httl, ⟨_, hrender⟩, rfl⟩
      · exact iff_of_false (fun h ↦ by cases h) fun h ↦ by cases h.2.2

theorem resendVerification_counters :
    (resendVerification w s ctx email).2.counters = s.counters := by
  unfold resendVerification
  split
  · rfl
  · split
    · rfl
    · split
      · rfl
      · exact mailLink_counters

theorem forgotPassword_counters : (forgotPassword w s ctx email).2.counters = s.counters := by
  unfold forgotPassword
  split
  · rfl
  · exact mailLink_counters

theorem createUser_counters : (createUser s user).2.counters = s.counters := by
  unfold createUser
  split <;> rfl

theorem signUp_counters :
    (signUp w s ctx email password fullName adminInviteCode).2.counters = s.counters := by
  unfold signUp
  split
  · split
    · exact resendVerification_counters
    · rfl
  · split
    · rfl
    · split
      · rfl
      · dsimp only
        split
        · next raised s' hcreate => exact (congrArg (·.2.counters) hcreate).symm.trans createUser_counters
        · next s' hcreate =>
          have hcounters : s'.counters = s.counters :=
            (congrArg (·.2.counters) hcreate).symm.trans createUser_counters
          split
          · exact mailLink_counters.trans hcounters
          · exact hcounters

/-- A sign-in with a password that is not the one of the account. -/
theorem signInService_of_wrong
    (hwrong : ∀ user, s.users email = some user → w.verifyPassword password user.passwordHash = some false) :
    signInService w s ctx email password mfaCode =
      (.error (.http { statusCode := 401, detail := "Invalid credentials" }), s) := by
  unfold signInService
  split
  · rfl
  · next user huser =>
    rw [hwrong user huser]

/-- The answer to it, and the failure that is counted. -/
theorem serveSignIn_of_wrong (password : String) (mfaCode : Option String)
    (henforce : enforceRateLimit s.counters ("rate_limit:auth_fail:" ++ ctx.host ++ ":" ++ email) ctx.now
      w.authFailureLimit = .ok ())
    (hwrong : ∀ user, s.users email = some user → w.verifyPassword password user.passwordHash = some false) :
    serveSignIn w s ctx email password mfaCode =
      ((⟨401, some "Invalid credentials", []⟩, none), { s with
        counters := incrementRateLimit s.counters ("rate_limit:auth_fail:" ++ ctx.host ++ ":" ++ email)
          ctx.now w.authFailureWindowSeconds }) := by
  unfold serveSignIn
  dsimp only
  rw [henforce, signInService_of_wrong hwrong]
  rfl

/-- A password that cannot be compared. -/
theorem serveSignIn_of_none (password : String) (mfaCode : Option String)
    (henforce : enforceRateLimit s.counters ("rate_limit:auth_fail:" ++ ctx.host ++ ":" ++ email) ctx.now
      w.authFailureLimit = .ok ())
    (huser : s.users email = some user) (hnone : w.verifyPassword password user.passwordHash = none) :
    serveSignIn w s ctx email password mfaCode =
      ((⟨400, some "The request contains invalid data.", []⟩, none), s) := by
  have hservice : signInService w s ctx email password mfaCode = (.error .valueError, s) := by
    unfold signInService
    rw [huser]
    dsimp only
    rw [hnone]
  unfold serveSignIn
  dsimp only
  rw [henforce, hservice]
  rfl

/-! ### Requests that are not refused -/

/-- A response of success is not that to an error. -/
theorem respondWith_eq_iff {α : Type} {success : HttpResponse} {result : Except Raised α}
    (hsuccess : success.statusCode < 400) :
    respondWith success result = (success, none) ↔ result.map (fun _ ↦ ()) = .ok () := by
  rcases result with raised | a
  · refine iff_of_false (fun h ↦ ?_) fun h ↦ nomatch h
    have hstatus := congrArg HttpResponse.statusCode (Prod.mk.inj h).1
    exact absurd (hstatus ▸ raised.isError) (Nat.not_le.2 hsuccess)
  · exact iff_of_true rfl rfl

/-- The account that the request names is looked up. -/
theorem users_withAccount (email : String) (account : Option (Account Hash)) :
    (s.withAccount email account).users email = account :=
  Function.update_self ..

/-- The answer after the count. -/
def IndistinguishableCounted (w : AuthWorld Hash) (s : AuthState Hash) (ctx : AuthContext)
    (request : AuthRequest) : Prop :=
  ∀ x y, Admissible w request x → Admissible w request y →
    (serveCounted w (s.withAccount request.email x) ctx request).1 =
      (serveCounted w (s.withAccount request.email y) ctx request).1 ∧
    (serveCounted w (s.withAccount request.email x) ctx request).2.counters =
      (serveCounted w (s.withAccount request.email y) ctx request).2.counters

/-- A request that is refused for its attempts is refused in both databases. -/
theorem indistinguishable_of_error {request : AuthRequest} {raised : Raised}
    (h : (counted s ctx request).1 = .error raised) : Indistinguishable w s ctx request := by
  have hserve : ∀ account, serveAuth w (s.withAccount request.email account) ctx request =
      ((raised.response, none), { s.withAccount request.email account with
        counters := (counted s ctx request).2 }) := by
    intro account
    have hcounted : counted (s.withAccount request.email account) ctx request = counted s ctx request := rfl
    rw [serveAuth, hcounted]
    rcases hresult : counted s ctx request with ⟨result, counters⟩
    rw [hresult] at h
    obtain rfl : result = .error raised := h
    rfl
  intro x y _ _
  rw [hserve, hserve]
  exact ⟨rfl, rfl⟩

theorem indistinguishable_iff_counted {request : AuthRequest} (h : (counted s ctx request).1 = .ok ()) :
    Indistinguishable w s ctx request ↔
      IndistinguishableCounted w { s with counters := (counted s ctx request).2 } ctx request := by
  have hserve : ∀ account, serveAuth w (s.withAccount request.email account) ctx request =
      serveCounted w
        (AuthState.withAccount { s with counters := (counted s ctx request).2 } request.email account)
        ctx request := by
    intro account
    have hcounted : counted (s.withAccount request.email account) ctx request = counted s ctx request := rfl
    rw [serveAuth, hcounted]
    rcases hresult : counted s ctx request with ⟨result, counters⟩
    rw [hresult] at h
    obtain rfl : result = .ok () := h
    rfl
  simp only [Indistinguishable, IndistinguishableCounted, hserve]

/-! ### Each request -/

theorem map_unit_ok_iff {result : Except Raised Unit} :
    result.map (fun _ ↦ ()) = .ok () ↔ result = .ok () := by
  rcases result with raised | ⟨⟩
  · exact Iff.rfl
  · exact iff_of_true rfl rfl

theorem resendVerification_ok_iff (hemail : ∀ user, s.users email = some user → user.email = email) :
    (resendVerification w s ctx email).1.map (fun _ ↦ ()) = .ok () ↔
      (w.requireEmailVerification = true → ∀ user, s.users email = some user → user.isVerified = false →
        Mailable w email (verificationLink w ctx email)) := by
  unfold resendVerification
  rcases hrequire : w.requireEmailVerification with - | -
  · exact iff_of_true rfl fun h ↦ nomatch h
  · simp only [Bool.not_true, Bool.false_eq_true, if_false, forall_const]
    rcases huser : s.users email with - | user
    · exact iff_of_true rfl fun _ h ↦ nomatch h
    · obtain rfl := hemail user huser
      rcases hverified : user.isVerified with - | -
      · simp only [Bool.false_eq_true, if_false, Option.some.injEq, forall_eq', hverified, forall_const]
        exact map_unit_ok_iff.trans mailLink_fst_eq_ok_iff
      · refine iff_of_true (congrArg (fun result : Except Raised Unit × AuthState Hash ↦
          result.1.map fun _ ↦ ()) (if_pos hverified)) fun other hother hnot ↦ ?_
        obtain rfl := Option.some.inj hother
        exact nomatch hverified.symm.trans hnot

theorem forgotPassword_ok_iff (hemail : ∀ user, s.users email = some user → user.email = email) :
    (forgotPassword w s ctx email).1.map (fun _ ↦ ()) = .ok () ↔
      ∀ user, s.users email = some user → Mailable w email (resetLink w ctx) := by
  unfold forgotPassword
  rcases huser : s.users email with - | user
  · exact iff_of_true rfl fun _ h ↦ nomatch h
  · obtain rfl := hemail user huser
    simp only [Option.some.injEq, forall_eq']
    exact map_unit_ok_iff.trans mailLink_fst_eq_ok_iff

theorem map_ok_iff {α β : Type} {f : α → β} {result : Except Raised α} :
    (result.map f).map (fun _ ↦ ()) = .ok () ↔ result.map (fun _ ↦ ()) = .ok () := by
  rcases result with raised | a
  · exact Iff.rfl
  · exact iff_of_true rfl rfl

/-- **A known address** is told to wait, unless a mail is to go out that cannot. -/
theorem signUp_ok_iff_of_some (huser : s.users email = some user) (hemail : user.email = email) :
    (signUp w s ctx email password fullName adminInviteCode).1.map (fun _ ↦ ()) = .ok () ↔
      (w.requireEmailVerification = true → user.isVerified = false →
        Mailable w email (verificationLink w ctx email)) := by
  unfold signUp
  rw [huser]
  dsimp only
  by_cases hresend : (w.requireEmailVerification && !user.isVerified) = true
  · rw [if_pos hresend, map_ok_iff, resendVerification_ok_iff fun other hother ↦ by
      rw [huser] at hother
      exact Option.some.inj hother ▸ hemail]
    simp only [huser, Option.some.injEq, forall_eq']
  · rw [if_neg hresend]
    refine iff_of_true rfl fun hrequire hverified ↦ absurd ?_ hresend
    rw [hrequire, hverified]
    rfl

/-- **A new address** is, unless something fails that is done for a new address. -/
theorem signUp_ok_iff_of_none (huser : s.users email = none) :
    (signUp w s ctx email password fullName adminInviteCode).1.map (fun _ ↦ ()) = .ok () ↔
      NothingFails w ctx (.signUp email password fullName adminInviteCode) := by
  unfold signUp NothingFails
  rw [huser]
  dsimp only
  rcases hinvite : admitInvite w adminInviteCode with raised | isAdmin
  · exact iff_of_false (fun h ↦ nomatch h) fun ⟨⟨_, h⟩, _⟩ ↦ nomatch h
  rcases hhash : w.hashPassword password with - | passwordHash
  · exact iff_of_false (fun h ↦ nomatch h) fun ⟨_, h, _⟩ ↦ h rfl
  dsimp only
  unfold createUser
  by_cases hfits : (fitsColumn email && fullName.all fitsColumn) = true
  · rw [if_pos hfits]
    obtain ⟨hemail, hname⟩ := Bool.and_eq_true_iff.1 hfits
    dsimp only
    rcases hrequire : w.requireEmailVerification with - | -
    · exact iff_of_true rfl ⟨⟨isAdmin, rfl⟩, Option.some_ne_none _, hemail, hname, fun h ↦ nomatch h⟩
    · rw [if_pos rfl, map_ok_iff, map_unit_ok_iff, mailLink_fst_eq_ok_iff]
      exact ⟨fun h ↦ ⟨⟨isAdmin, rfl⟩, Option.some_ne_none _, hemail, hname, fun _ ↦ h⟩,
        fun ⟨_, _, _, _, h⟩ ↦ h rfl⟩
  · rw [if_neg hfits]
    exact iff_of_false (fun h ↦ nomatch h) fun ⟨_, _, hemail, hname, _⟩ ↦
      hfits (Bool.and_eq_true_iff.2 ⟨hemail, hname⟩)

/-- A route that answers a success, if its service returns, and leaves the counters alone: no account
tells, exactly if the service returns for all of them. -/
theorem indistinguishable_iff_ok (request : AuthRequest) (success : HttpResponse)
    (ok : Option (Account Hash) → Prop) {x₀ : Option (Account Hash)}
    (hcounters : ∀ x, (serveCounted w (s.withAccount request.email x) ctx request).2.counters = s.counters)
    (hanswer : ∀ x, Admissible w request x →
      ((serveCounted w (s.withAccount request.email x) ctx request).1 = (success, none) ↔ ok x))
    (hx₀ : Admissible w request x₀) (hok : ok x₀) :
    IndistinguishableCounted w s ctx request ↔ ∀ x, Admissible w request x → ok x := by
  constructor
  · intro h x hx
    refine (hanswer x hx).1 ?_
    rw [(h x x₀ hx hx₀).1]
    exact (hanswer x₀ hx₀).2 hok
  · intro h x y hx hy
    refine ⟨?_, (hcounters x).trans (hcounters y).symm⟩
    rw [(hanswer x hx).2 (h x hx), (hanswer y hy).2 (h y hy)]

section Requests

variable [Inhabited Hash]

/-- Some account under the address. -/
def someAccount (email : String) (isVerified : Bool) (hash : Hash) : Account Hash where
  id := ""
  email := email
  passwordHash := hash
  fullName := none
  isVerified := isVerified

omit [Inhabited Hash] in
theorem admissible_none {request : AuthRequest} : Admissible w request none := fun _ h ↦ nomatch h

omit [Inhabited Hash] in
theorem admissible_some {request : AuthRequest} (hemail : user.email = request.email)
    (hrequest : ∀ email password mfaCode, request ≠ .signIn email password mfaCode) :
    Admissible w request (some user) := by
  intro other hother
  obtain rfl := Option.some.inj hother
  exact ⟨hemail, fun email password mfaCode h ↦ absurd h (hrequest email password mfaCode)⟩

/-- What `sign_up` answers to anyone. -/
def signUpSuccess (w : AuthWorld Hash) : HttpResponse where
  statusCode := 202
  detail := some <|
    if w.requireEmailVerification then
      "If the account can be created, a verification email will be sent shortly."
    else "If the account can be created, you can sign in shortly."

theorem counted_signUp_iff :
    IndistinguishableCounted w s ctx (.signUp email password fullName adminInviteCode) ↔
      NothingFails w ctx (.signUp email password fullName adminInviteCode) := by
  let knownOk (user : Account Hash) : Prop := w.requireEmailVerification = true →
    user.isVerified = false → Mailable w email (verificationLink w ctx email)
  let ok (known : Option (Account Hash)) : Prop :=
    known.elim (NothingFails w ctx (.signUp email password fullName adminInviteCode)) knownOk
  have hknown : ok (some (someAccount email true default)) := fun _ h ↦ by cases h
  refine (indistinguishable_iff_ok (.signUp email password fullName adminInviteCode)
    (signUpSuccess w) ok (fun _ ↦ signUp_counters) (fun x hx ↦ ?_)
    (admissible_some rfl fun _ _ _ h ↦ AuthRequest.noConfusion h) hknown).trans ?_
  · have hsuccess : (signUpSuccess w).statusCode < 400 := show 202 < 400 by decide
    refine (respondWith_eq_iff hsuccess).trans ?_
    rcases x with - | user
    · exact signUp_ok_iff_of_none (users_withAccount _ _)
    · exact signUp_ok_iff_of_some (users_withAccount _ _) (hx user rfl).1
  · constructor
    · exact fun h ↦ h none admissible_none
    · rintro h (- | user) -
      · exact h
      · exact fun hrequire _ ↦ h.2.2.2.2 hrequire

theorem counted_resendVerification_iff :
    IndistinguishableCounted w s ctx (.resendVerification email) ↔
      NothingFails w ctx (.resendVerification email) := by
  let ok (account : Option (Account Hash)) : Prop := w.requireEmailVerification = true →
    ∀ user, account = some user → user.isVerified = false →
      Mailable w email (verificationLink w ctx email)
  refine (indistinguishable_iff_ok (.resendVerification email) ⟨204, none, []⟩ ok
    (fun _ ↦ resendVerification_counters) (fun x hx ↦ ?_) admissible_none fun _ _ h ↦ nomatch h).trans ?_
  · refine (respondWith_eq_iff (by decide)).trans ?_
    have hemail : ∀ user, (s.withAccount email x).users email = some user → user.email = email := by
      intro user huser
      rw [users_withAccount] at huser
      exact (hx user huser).1
    exact (resendVerification_ok_iff hemail).trans (by rw [users_withAccount])
  · constructor
    · exact fun h hrequire ↦ h (some (someAccount email false default))
        (admissible_some rfl fun _ _ _ h ↦ AuthRequest.noConfusion h) hrequire _ rfl rfl
    · exact fun h x _ hrequire _ _ _ ↦ h hrequire

theorem counted_forgotPassword_iff :
    IndistinguishableCounted w s ctx (.forgotPassword email) ↔
      NothingFails w ctx (.forgotPassword email) := by
  let ok (account : Option (Account Hash)) : Prop :=
    ∀ user, account = some user → Mailable w email (resetLink w ctx)
  refine (indistinguishable_iff_ok (.forgotPassword email) ⟨204, none, []⟩ ok
    (fun _ ↦ forgotPassword_counters) (fun x hx ↦ ?_) admissible_none fun _ h ↦ nomatch h).trans ?_
  · refine (respondWith_eq_iff (by decide)).trans ?_
    have hemail : ∀ user, (s.withAccount email x).users email = some user → user.email = email := by
      intro user huser
      rw [users_withAccount] at huser
      exact (hx user huser).1
    exact (forgotPassword_ok_iff hemail).trans (by rw [users_withAccount])
  · constructor
    · exact fun h ↦ h (some (someAccount email false default))
        (admissible_some rfl fun _ _ _ h ↦ AuthRequest.noConfusion h) _ rfl
    · exact fun h x _ _ _ ↦ h

/-- **A sign-in** with the wrong password is answered alike, if the password can be compared at all. -/
theorem counted_signIn_iff :
    IndistinguishableCounted w s ctx (.signIn email password mfaCode) ↔
      enforceRateLimit s.counters ("rate_limit:auth_fail:" ++ ctx.host ++ ":" ++ email) ctx.now
          w.authFailureLimit ≠ .ok () ∨
        NothingFails w ctx (.signIn email password mfaCode) := by
  rcases henforce : enforceRateLimit s.counters ("rate_limit:auth_fail:" ++ ctx.host ++ ":" ++ email)
      ctx.now w.authFailureLimit with raised | ⟨⟩
  · refine iff_of_true (fun x y _ _ ↦ ?_) (.inl fun h ↦ nomatch h)
    have hserve : ∀ account, serveCounted w (s.withAccount email account) ctx
        (.signIn email password mfaCode) = ((raised.response, none), s.withAccount email account) := by
      intro account
      show serveSignIn w (s.withAccount email account) ctx email password mfaCode = _
      unfold serveSignIn
      dsimp only [AuthState.withAccount]
      rw [henforce]
    exact ⟨(congrArg Prod.fst (hserve x)).trans (congrArg Prod.fst (hserve y)).symm,
      (congrArg (·.2.counters) (hserve x)).trans (congrArg (·.2.counters) (hserve y)).symm⟩
  constructor
  · refine fun h ↦ .inr fun hash hnone ↦ ?_
    have hknown : Admissible w (.signIn email password mfaCode) (some (someAccount email true hash)) := by
      intro user huser
      obtain rfl := Option.some.inj huser
      refine ⟨rfl, fun _ _ _ hrequest htrue ↦ ?_⟩
      cases hrequest
      exact nomatch hnone.symm.trans htrue
    have habsent := serveSignIn_of_wrong (s := s.withAccount email none) password mfaCode henforce
      fun user huser ↦ by
        rw [users_withAccount] at huser
        exact nomatch huser
    have hpresent := serveSignIn_of_none (s := s.withAccount email (some (someAccount email true hash)))
      password mfaCode henforce (users_withAccount _ _) hnone
    have heq := (h none (some (someAccount email true hash)) admissible_none hknown).1
    have hstatus : (401 : ℕ) = 400 :=
      ((congrArg (·.1.1.statusCode) habsent).symm.trans (congrArg (·.1.statusCode) heq)).trans
        (congrArg (·.1.1.statusCode) hpresent)
    exact absurd hstatus (by decide)
  · rintro (h | h) x y hx hy
    · exact absurd rfl h
    have hserve : ∀ account, Admissible w (.signIn email password mfaCode) account → _ :=
      fun account haccount ↦ serveSignIn_of_wrong (s := s.withAccount email account) password mfaCode
        henforce fun user huser ↦ by
          rw [users_withAccount] at huser
          have hnot := (haccount user huser).2 _ _ _ rfl
          rcases hverify : w.verifyPassword password user.passwordHash with - | - | -
          · exact absurd hverify (h user.passwordHash)
          · rfl
          · exact absurd hverify hnot
    exact ⟨(congrArg Prod.fst (hserve x hx)).trans (congrArg Prod.fst (hserve y hy)).symm,
      (congrArg (·.2.counters) (hserve x hx)).trans (congrArg (·.2.counters) (hserve y hy)).symm⟩

/-- **The answers tell no account from another**, nor a known address from a new one, exactly if the
attempt is refused, or nothing fails that is done for some accounts only. -/
theorem no_enumeration_iff (w : AuthWorld Hash) (s : AuthState Hash) (ctx : AuthContext)
    (request : AuthRequest) :
    Indistinguishable w s ctx request ↔ OverLimit w s ctx request ∨ NothingFails w ctx request := by
  rcases hcounted : (counted s ctx request).1 with raised | ⟨⟩
  · have hover : (counted s ctx request).1 ≠ .ok () := fun h ↦ nomatch hcounted.symm.trans h
    refine iff_of_true (indistinguishable_of_error hcounted) (.inl ?_)
    cases request with
    | signIn email password mfaCode => exact .inl hover
    | signUp | resendVerification | forgotPassword => exact hover
  · have hunder : ¬(counted s ctx request).1 ≠ .ok () := fun h ↦ h hcounted
    rw [indistinguishable_iff_counted hcounted]
    cases request with
    | signUp email password fullName adminInviteCode =>
      exact counted_signUp_iff.trans (or_iff_right hunder).symm
    | signIn email password mfaCode =>
      exact counted_signIn_iff.trans (or_congr_left (or_iff_right hunder).symm)
    | resendVerification email => exact counted_resendVerification_iff.trans (or_iff_right hunder).symm
    | forgotPassword email => exact counted_forgotPassword_iff.trans (or_iff_right hunder).symm

end Requests

/-- A service that verifies addresses, and for which no invite code is configured. -/
def verifyingWorld : AuthWorld String where
  requireEmailVerification := true
  adminSignupInviteCode := ""
  authFailureLimit := 10
  authFailureWindowSeconds := 900
  verificationTokenTtl := 86400
  passwordResetTokenTtl := 3600
  refreshTokenExpireDays := 30
  frontendUrl := "http://localhost:3000"
  queueForbidden := false
  hashPassword := some
  verifyPassword password hash := some (password = hash)
  hashToken := id
  verifyTotp _ _ _ := false
  mfaAvailable := true
  getAppName := .ok "Generic App"
  renderEmailTemplate _ _ fallback := .ok fallback

/-- **A wrong invite code tells.** It is refused for a new address, and goes unnoticed for a known one. -/
theorem invite_code_tells :
    let nobody : AuthState String := ⟨fun _ ↦ none, [], [], ExpiringStore.empty, ExpiringStore.empty, []⟩
    let ctx : AuthContext := ⟨some "127.0.0.1", 0, "token", "id", 0⟩
    let request : AuthRequest := .signUp "ann@example.com" "longenough" none (some "wrong")
    let ann : Account String := someAccount "ann@example.com" true "secret"
    (serveAuth verifyingWorld (nobody.withAccount "ann@example.com" none) ctx request).1.1.statusCode = 403 ∧
      (serveAuth verifyingWorld (nobody.withAccount "ann@example.com" (some ann)) ctx
        request).1.1.statusCode = 202 ∧
      ¬Indistinguishable verifyingWorld nobody ctx request := by
  refine ⟨by decide +kernel, by decide +kernel, fun h ↦ ?_⟩
  have hstatus := congrArg (fun response : AuthResponse ↦ response.1.statusCode)
    (h none (some (someAccount "ann@example.com" true "secret")) (fun _ h ↦ nomatch h) (fun user huser ↦
      ⟨Option.some.inj huser ▸ rfl, fun _ _ _ hrequest ↦ AuthRequest.noConfusion hrequest⟩)).1
  revert hstatus
  decide +kernel

end Enumeration

end GenericApp
