import GenericApp.Identity.IdentityMoves

/-!
# Invariants of the sessions

What is issued stays issued, with its id, its token, its user and its expiry; only the mark of revocation is
written later. So the sessions as they were issued are a list that only grows (`issued_write`), and everything
that a call has read about one of them remains true.

`IdentityState.WellFormed` collects what holds in every reachable state. Its core is that a `refresh` that has
updated a session holds it locked and finds it unrevoked until it commits, while the session of a `refresh` that
is done is revoked: so no session is rotated twice.
-/

namespace GenericApp

open Machine Py

/-! ### What is issued -/

/-- The session as it was issued. -/
def RefreshSession.asIssued (session : RefreshSession) : RefreshSession := { session with isRevoked := false }

/-- The two sessions share neither the id nor the token. -/
def RefreshSession.Apart (a b : RefreshSession) : Prop := a.id ≠ b.id ∧ a.tokenHash ≠ b.tokenHash

instance : Std.Symm RefreshSession.Apart := ⟨fun _ _ h ↦ ⟨h.1.symm, h.2.symm⟩⟩

namespace IdentityState

/-- The committed sessions, as they were issued. -/
def issued (s : IdentityState) : List RefreshSession := s.sessions.map RefreshSession.asIssued

/-- The session is committed and not revoked. -/
def Unrevoked (s : IdentityState) (sessionId : Uuid) : Prop :=
  ∀ row ∈ s.sessions, row.id = sessionId → row.isRevoked = false

/-- The session is committed and revoked. -/
def Revoked (s : IdentityState) (sessionId : Uuid) : Prop :=
  ∀ row ∈ s.sessions, row.id = sessionId → row.isRevoked = true

variable {s : IdentityState} {k : ℕ} {call : IdentityCall} {w : IdentityWrites} {sessionId : Uuid}

theorem asIssued_revokeIn (revoked : List Uuid) (session : RefreshSession) :
    (revokeIn revoked session).asIssued = session.asIssued := by
  rw [revokeIn]
  split <;> rfl

theorem id_revokeIn (revoked : List Uuid) (session : RefreshSession) :
    (revokeIn revoked session).id = session.id := by
  rw [revokeIn]
  split <;> rfl

/-- **What is issued stays issued.** -/
theorem issued_write :
    (s.write k call w).issued = s.issued ++ w.created.map RefreshSession.asIssued := by
  rw [issued, write, List.map_append, List.map_map]
  congr 1
  exact List.map_congr_left fun session _ ↦ asIssued_revokeIn w.revoked session

theorem mem_sessions_write {row : RefreshSession} :
    row ∈ (s.write k call w).sessions ↔ (∃ r ∈ s.sessions, revokeIn w.revoked r = row) ∨ row ∈ w.created := by
  rw [write, List.mem_append, List.mem_map]

/-- A session of an id that is issued is a committed one. -/
theorem exists_mem_of_issued {x : RefreshSession} (h : x ∈ s.issued) :
    ∃ row ∈ s.sessions, row.asIssued = x := List.mem_map.1 h

theorem asIssued_mem {row : RefreshSession} (h : row ∈ s.sessions) : row.asIssued ∈ s.issued :=
  List.mem_map.2 ⟨row, h, rfl⟩

/-- What is not revoked by a write is as before. -/
theorem Unrevoked.write (h : s.Unrevoked sessionId) (hrevoked : sessionId ∉ w.revoked)
    (hcreated : ∀ row ∈ w.created, row.id ≠ sessionId) : (s.write k call w).Unrevoked sessionId := by
  intro row hrow hid
  rcases mem_sessions_write.1 hrow with ⟨r, hr, rfl⟩ | hrow
  · rw [id_revokeIn] at hid
    rw [revokeIn, if_neg (by rwa [hid])]
    exact h r hr hid
  · exact absurd hid (hcreated row hrow)

theorem Unrevoked.write_nothing (h : s.Unrevoked sessionId) : (s.write k call {}).Unrevoked sessionId :=
  h.write List.not_mem_nil fun _ hrow ↦ absurd hrow List.not_mem_nil

/-- What is revoked stays revoked. -/
theorem Revoked.write (h : s.Revoked sessionId) (hcreated : ∀ row ∈ w.created, row.id ≠ sessionId) :
    (s.write k call w).Revoked sessionId := by
  intro row hrow hid
  rcases mem_sessions_write.1 hrow with ⟨r, hr, rfl⟩ | hrow
  · rw [id_revokeIn] at hid
    rw [revokeIn]
    split
    · rfl
    · exact h r hr hid
  · exact absurd hid (hcreated row hrow)

/-- What a write revokes is revoked. -/
theorem revoked_write (h : sessionId ∈ w.revoked) (hcreated : ∀ row ∈ w.created, row.id ≠ sessionId) :
    (s.write k call w).Revoked sessionId := by
  intro row hrow hid
  rcases mem_sessions_write.1 hrow with ⟨r, hr, rfl⟩ | hrow
  · rw [id_revokeIn] at hid
    rw [revokeIn, if_pos (by rwa [hid])]
  · exact absurd hid (hcreated row hrow)

/-- No other call has locked the session. -/
theorem unlocked_iff : s.unlocked k sessionId = true ↔
    ∀ (j : ℕ) (other : IdentityCall), s.calls[j]? = some other → j ≠ k → sessionId ∉ other.locks := by
  rw [unlocked, List.all_eq_true]
  constructor
  · intro h j other hother hne
    rcases of_decide_eq_true (h (other, j) (List.mem_zipIdx_iff_getElem?.2 hother)) with heq | hfree
    · exact absurd heq hne
    · exact hfree
  · rintro h ⟨other, j⟩ hmem
    rw [List.mem_zipIdx_iff_getElem?] at hmem
    refine decide_eq_true ?_
    by_cases heq : j = k
    · exact .inl heq
    · exact .inr (h j other hmem heq)

/-! ### The invariant -/

/-- What a call has read about a session is true of what was issued. -/
def Known (s : IdentityState) (refreshHash : String) (old : RefreshSession) : Prop :=
  old.tokenHash = refreshHash ∧ old.asIssued ∈ s.issued

/-- What holds of a call that has come so far. -/
def Fits (s : IdentityState) : IdentityCall → Prop
  | .refresh refreshHash (.found old) => s.Known refreshHash old
  | .refresh refreshHash (.checked old) => s.Known refreshHash old
  | .refresh refreshHash (.rotating old _) => s.Known refreshHash old
  | .refresh refreshHash (.rotated old) => s.Known refreshHash old ∧ s.Unrevoked old.id
  | .refresh refreshHash (.inserted old new) =>
    s.Known refreshHash old ∧ s.Unrevoked old.id ∧ new.userId = old.userId
  | .refresh refreshHash (.done old new) =>
    s.Revoked old ∧ ∃ (i j : ℕ) (x y : RefreshSession), i < j ∧ s.issued[i]? = some x ∧ s.issued[j]? = some y ∧
      x.id = old ∧ x.tokenHash = refreshHash ∧ y.id = new ∧ y.userId = x.userId
  | .signIn _ _ _ (.done session) => ∃ x ∈ s.issued, x.id = session
  | _ => True

end IdentityState

/-- The call has committed the session. -/
inductive IdentityCall.Creates : IdentityCall → Uuid → Prop
  | signIn (email password : String) (mfaCode : Option String) (session : Uuid) :
      Creates (.signIn email password mfaCode (.done session)) session
  | refresh (refreshHash : String) (old new : Uuid) : Creates (.refresh refreshHash (.done old new)) new

/-- What holds in every reachable state. -/
structure IdentityState.WellFormed (s : IdentityState) : Prop where
  apart : s.issued.Pairwise RefreshSession.Apart
  pending_apart {k : ℕ} {call : IdentityCall} {session : RefreshSession} (hcall : s.calls[k]? = some call)
    (hpending : call.pending = some session) : ∀ x ∈ s.issued, x.Apart session
  pending_distinct {j k : ℕ} {call call' : IdentityCall} {session session' : RefreshSession} (hne : j ≠ k)
    (hcall : s.calls[j]? = some call) (hcall' : s.calls[k]? = some call')
    (hpending : call.pending = some session) (hpending' : call'.pending = some session') :
    session.Apart session'
  exclusive {j k : ℕ} {call call' : IdentityCall} (hne : j ≠ k) (hcall : s.calls[j]? = some call)
    (hcall' : s.calls[k]? = some call') {sessionId : Uuid} (hlocked : sessionId ∈ call.locks) :
    sessionId ∉ call'.locks
  fits {k : ℕ} {call : IdentityCall} (hcall : s.calls[k]? = some call) : s.Fits call
  once {j k : ℕ} {refreshHash refreshHash' : String} {old new new' : Uuid}
    (hcall : s.calls[j]? = some (.refresh refreshHash (.done old new)))
    (hcall' : s.calls[k]? = some (.refresh refreshHash' (.done old new'))) : j = k
  created {x : RefreshSession} (hx : x ∈ s.issued) :
    ∃ (k : ℕ) (call : IdentityCall), s.calls[k]? = some call ∧ call.Creates x.id
  created_once {j k : ℕ} {call call' : IdentityCall} {sessionId : Uuid} (hcall : s.calls[j]? = some call)
    (hcall' : s.calls[k]? = some call') (hcreates : call.Creates sessionId)
    (hcreates' : call'.Creates sessionId) : j = k

/-! ### Along a move -/

section Move

variable {world : IdentityWorld} {s : IdentityState} {k : ℕ} {fresh : Uuid × String}
  {call call' : IdentityCall} {w : IdentityWrites}

/-- A call after a move: the one that has moved, or another one, which is as before. -/
theorem IdentityState.calls_write (hcall : s.calls[k]? = some call) {j : ℕ} {other : IdentityCall}
    (h : (s.write k call' w).calls[j]? = some other) :
    j = k ∧ other = call' ∨ j ≠ k ∧ s.calls[j]? = some other := by
  by_cases hj : j = k
  · subst hj
    have hlt : j < s.calls.length := (List.getElem?_eq_some_iff.1 hcall).1
    have hset : (s.write j call' w).calls[j]? = some call' := List.getElem?_set_self hlt
    exact .inl ⟨rfl, Option.some.inj (h.symm.trans hset)⟩
  · have hset : (s.write k call' w).calls[j]? = s.calls[j]? := List.getElem?_set_ne (Ne.symm hj)
    exact .inr ⟨hj, hset.symm.trans h⟩

theorem IdentityState.getElem?_issued_write {i : ℕ} {x : RefreshSession} (h : s.issued[i]? = some x) :
    (s.write k call w).issued[i]? = some x := by
  rw [issued_write, List.getElem?_append_left (List.getElem?_eq_some_iff.1 h).1]
  exact h

theorem IdentityState.mem_issued_write {x : RefreshSession} (h : x ∈ s.issued) :
    x ∈ (s.write k call w).issued := by
  rw [issued_write]
  exact List.mem_append_left _ h

namespace IdentityState.WellFormed

/-- A committed session is the only one with its id. -/
theorem eq_of_id (hs : s.WellFormed) {r r' : RefreshSession} (hr : r ∈ s.sessions) (hr' : r' ∈ s.sessions)
    (hid : r.id = r'.id) : r = r' := by
  by_contra hne
  have hapart : (s.sessions.map RefreshSession.asIssued).Pairwise RefreshSession.Apart := hs.apart
  have hpairwise : s.sessions.Pairwise RefreshSession.Apart := (List.pairwise_map.1 hapart).imp fun h ↦ h
  exact (hpairwise.forall hr hr' hne).1 hid

/-- An issued session is the only one with its token. -/
theorem eq_of_tokenHash (hs : s.WellFormed) {x y : RefreshSession} (hx : x ∈ s.issued) (hy : y ∈ s.issued)
    (htoken : x.tokenHash = y.tokenHash) : x = y := by
  by_contra hne
  exact (hs.apart.forall hx hy hne).2 htoken

/-- What a call creates is apart from what is issued. -/
theorem created_apart (hs : s.WellFormed) (hcall : s.calls[k]? = some call)
    (hmove : IdentityMove world s k fresh call call' w) {x : RefreshSession} (hx : x ∈ s.issued) :
    ∀ row ∈ w.created, x.Apart row := by
  intro row hrow
  rcases hmove.created_eq with hnil | ⟨session, hcreated, hpending⟩
  · rw [hnil] at hrow
    exact absurd hrow List.not_mem_nil
  · rw [hcreated, List.mem_singleton] at hrow
    exact hrow ▸ hs.pending_apart hcall hpending x hx

theorem known_write {refreshHash : String} {old : RefreshSession} (h : s.Known refreshHash old) :
    (s.write k call' w).Known refreshHash old := ⟨h.1, mem_issued_write h.2⟩

/-- What fits another call still does. -/
theorem fits_other (hs : s.WellFormed) (hcall : s.calls[k]? = some call)
    (hmove : IdentityMove world s k fresh call call' w) {j : ℕ} {other : IdentityCall} (hne : j ≠ k)
    (hother : s.calls[j]? = some other) : (s.write k call' w).Fits other := by
  have hfits := hs.fits hother
  have hunrevoked {refreshHash : String} {old : RefreshSession} (hknown : s.Known refreshHash old)
      (h : s.Unrevoked old.id) (hlocked : old.id ∈ other.locks) : (s.write k call' w).Unrevoked old.id :=
    h.write (fun hid ↦ hs.exclusive hne hother hcall hlocked (hmove.revoked_subset hid))
      fun row hrow heq ↦ (hs.created_apart hcall hmove hknown.2 row hrow).1 heq.symm
  cases other with
  | signIn email password mfaCode stage =>
    cases stage with
    | done session =>
      obtain ⟨x, hx, hid⟩ := hfits
      exact ⟨x, mem_issued_write hx, hid⟩
    | _ => trivial
  | refresh refreshHash stage =>
    cases stage with
    | found old => exact known_write hfits
    | checked old => exact known_write hfits
    | rotating old now => exact known_write hfits
    | rotated old => exact ⟨known_write hfits.1, hunrevoked hfits.1 hfits.2 (List.mem_singleton_self _)⟩
    | inserted old new =>
      exact ⟨known_write hfits.1, hunrevoked hfits.1 hfits.2.1 (List.mem_singleton_self _), hfits.2.2⟩
    | done old new =>
      obtain ⟨hrevoked, i, j, x, y, hij, hi, hj, hid, hrest⟩ := hfits
      refine ⟨hrevoked.write fun row hrow heq ↦ ?_, i, j, x, y, hij, getElem?_issued_write hi,
        getElem?_issued_write hj, hid, hrest⟩
      exact (hs.created_apart hcall hmove (List.mem_of_getElem? hi) row hrow).1 (hid.trans heq.symm)
    | _ => trivial
  | logout refreshHash stage => trivial
  | resetPassword token newPasswordHash before stage => trivial

/-- What a call has come to fits it. -/
theorem fits_move (hs : s.WellFormed) (hcall : s.calls[k]? = some call)
    (hmove : IdentityMove world s k fresh call call' w) : (s.write k call' w).Fits call' := by
  have hfits := hs.fits hcall
  have hapart {x : RefreshSession} (hx : x ∈ s.issued) := hs.created_apart hcall hmove hx
  cases hmove with
  | @signInDone email password mfaCode session =>
    refine ⟨session.asIssued, ?_, rfl⟩
    rw [issued_write]
    exact List.mem_append_right _ List.mem_cons_self
  | @found refreshHash session hread =>
    have htoken : session.tokenHash = refreshHash := by simpa using List.find?_some hread
    exact known_write ⟨htoken, asIssued_mem (List.mem_of_find?_eq_some hread)⟩
  | checked => exact known_write hfits
  | rotating => exact known_write hfits
  | @rotated refreshHash old session now hmem hrotates hunlocked =>
    refine ⟨known_write hfits, Unrevoked.write_nothing ?_⟩
    intro row hrow hid
    rw [hs.eq_of_id hrow hmem (hid.trans hrotates.1.symm)]
    exact hrotates.2.2.1
  | refreshInserted =>
    exact ⟨known_write hfits.1, hfits.2.write_nothing, rfl⟩
  | @refreshDone refreshHash old new =>
    obtain ⟨⟨htoken, hissued⟩, -, huser⟩ := hfits
    obtain ⟨i, hi⟩ := List.mem_iff_getElem?.1 hissued
    refine ⟨revoked_write (List.mem_singleton_self _) fun row hrow heq ↦ (hapart hissued row hrow).1 heq.symm,
      i, s.issued.length, old.asIssued, new.asIssued, (List.getElem?_eq_some_iff.1 hi).1,
      getElem?_issued_write hi, ?_, rfl, htoken, rfl, huser⟩
    rw [issued_write]
    exact List.getElem?_concat_length
  | _ => trivial

/-- What a call creates, none has created before. -/
theorem not_created (hs : s.WellFormed) (hcall : s.calls[k]? = some call)
    (hmove : IdentityMove world s k fresh call call' w) {j : ℕ} {other : IdentityCall} {sessionId : Uuid}
    (hother : s.calls[j]? = some other) (hcreates : other.Creates sessionId)
    (hcreates' : call'.Creates sessionId) : False := by
  have hissued : ∃ x ∈ s.issued, x.id = sessionId := by
    have hfits := hs.fits hother
    cases hcreates with
    | signIn email password mfaCode session => exact hfits
    | refresh refreshHash old new =>
      obtain ⟨-, i, j, x, y, -, -, hj, -, -, hid, -⟩ := hfits
      exact ⟨y, List.mem_of_getElem? hj, hid⟩
  obtain ⟨x, hx, hid⟩ := hissued
  cases hmove with
  | signInDone =>
    cases hcreates'
    exact (hs.pending_apart hcall rfl x hx).1 hid
  | refreshDone =>
    cases hcreates'
    exact (hs.pending_apart hcall rfl x hx).1 hid
  | _ => cases hcreates'

/-- **A call that moves keeps the sessions well-formed.** -/
theorem write (hs : s.WellFormed) (hcall : s.calls[k]? = some call)
    (hmove : IdentityMove world s k fresh call call' w) : (s.write k call' w).WellFormed where
  apart := by
    rw [issued_write, List.pairwise_append]
    refine ⟨hs.apart, ?_, fun x hx y hy ↦ ?_⟩
    · rcases hmove.created_eq with hnil | ⟨session, hcreated, -⟩
      · rw [hnil]
        exact List.Pairwise.nil
      · rw [hcreated]
        exact List.pairwise_singleton _ _
    · obtain ⟨row, hrow, rfl⟩ := List.mem_map.1 hy
      exact hs.created_apart hcall hmove hx row hrow
  pending_apart := by
    intro j other session hother hpending x hx
    rw [issued_write, List.mem_append] at hx
    rcases calls_write hcall hother with ⟨rfl, rfl⟩ | ⟨hne, hother⟩
    · rw [hmove.created_of_pending hpending] at hx
      obtain ⟨hunused, hid, htoken, -⟩ := hmove.pending_fresh hpending
      obtain ⟨row, hrow, rfl⟩ := exists_mem_of_issued (hx.resolve_right List.not_mem_nil)
      obtain ⟨hne, hne'⟩ := hunused row (List.mem_append_left _ hrow)
      exact ⟨hid ▸ hne, htoken ▸ hne'⟩
    · rcases hx with hx | hx
      · exact hs.pending_apart hother hpending x hx
      · obtain ⟨row, hrow, rfl⟩ := List.mem_map.1 hx
        rcases hmove.created_eq with hnil | ⟨session', hcreated, hpending'⟩
        · rw [hnil] at hrow
          exact absurd hrow List.not_mem_nil
        · rw [hcreated, List.mem_singleton] at hrow
          have hdistinct := hs.pending_distinct (Ne.symm hne) hcall hother hpending' hpending
          exact hrow ▸ hdistinct
  pending_distinct := by
    have hfresh {j : ℕ} {other : IdentityCall} {session session' : RefreshSession}
        (hother : s.calls[j]? = some other) (hpending : other.pending = some session)
        (hpending' : call'.pending = some session') : session.Apart session' := by
      obtain ⟨hunused, hid, htoken, -⟩ := hmove.pending_fresh hpending'
      obtain ⟨hne, hne'⟩ := hunused session (List.mem_append_right _
        (List.mem_filterMap.2 ⟨other, List.mem_of_getElem? hother, hpending⟩))
      exact ⟨hid ▸ hne, htoken ▸ hne'⟩
    intro i j other other' session session' hne hother hother' hpending hpending'
    rcases calls_write hcall hother with ⟨rfl, rfl⟩ | ⟨hi, hbefore⟩ <;>
      rcases calls_write hcall hother' with ⟨rfl, rfl⟩ | ⟨hj, hbefore'⟩
    · exact absurd rfl hne
    · exact Std.Symm.symm _ _ (hfresh hbefore' hpending' hpending)
    · exact hfresh hbefore hpending hpending'
    · exact hs.pending_distinct hne hbefore hbefore' hpending hpending'
  exclusive := by
    have hfree {j : ℕ} {other : IdentityCall} (hne : j ≠ k) (hother : s.calls[j]? = some other)
        {sessionId : Uuid} (hlocked : sessionId ∈ call'.locks) : sessionId ∉ other.locks := by
      rcases hmove.locks_subset hlocked with hlocked | hunlocked
      · exact hs.exclusive (Ne.symm hne) hcall hother hlocked
      · exact unlocked_iff.1 hunlocked j other hother hne
    intro i j other other' hne hother hother' sessionId hlocked
    rcases calls_write hcall hother with ⟨rfl, rfl⟩ | ⟨hi, hbefore⟩ <;>
      rcases calls_write hcall hother' with ⟨rfl, rfl⟩ | ⟨hj, hbefore'⟩
    · exact absurd rfl hne
    · exact hfree hj hbefore' hlocked
    · exact fun hlocked' ↦ hfree hi hbefore hlocked' hlocked
    · exact hs.exclusive hne hbefore hbefore' hlocked
  fits := by
    intro j other hother
    rcases calls_write hcall hother with ⟨rfl, rfl⟩ | ⟨hne, hbefore⟩
    · exact hs.fits_move hcall hmove
    · exact hs.fits_other hcall hmove hne hbefore
  once := by
    -- The session of a call that is about to commit is unrevoked, and that of a call that is done is not.
    have hnot {j : ℕ} {refreshHash refreshHash' : String} {old new new' : Uuid}
        (hother : s.calls[j]? = some (.refresh refreshHash (.done old new)))
        (hcall' : call' = .refresh refreshHash' (.done old new')) : False := by
      subst hcall'
      cases hmove with
      | @refreshDone _ session =>
        obtain ⟨⟨-, hissued⟩, hunrevoked, -⟩ := hs.fits hcall
        obtain ⟨row, hrow, heq⟩ := exists_mem_of_issued hissued
        have hid : row.asIssued.id = session.asIssued.id := congrArg RefreshSession.id heq
        have hrevoked := (hs.fits hother).1 row hrow hid
        rw [hunrevoked row hrow hid] at hrevoked
        exact nomatch hrevoked
    intro i j refreshHash refreshHash' old new new' hother hother'
    rcases calls_write hcall hother with ⟨rfl, heq⟩ | ⟨-, hbefore⟩ <;>
      rcases calls_write hcall hother' with ⟨rfl, heq'⟩ | ⟨-, hbefore'⟩
    · rfl
    · exact (hnot hbefore' heq.symm).elim
    · exact (hnot hbefore heq'.symm).elim
    · exact hs.once hbefore hbefore'
  created := by
    intro x hx
    have hlt : k < s.calls.length := (List.getElem?_eq_some_iff.1 hcall).1
    have hself : (s.write k call' w).calls[k]? = some call' := List.getElem?_set_self hlt
    rw [issued_write, List.mem_append] at hx
    rcases hx with hx | hx
    · obtain ⟨j, other, hother, hcreates⟩ := hs.created hx
      have hne : j ≠ k := by
        rintro rfl
        obtain rfl := Option.some.inj (hcall.symm.trans hother)
        cases hcreates with
        | signIn => cases hmove
        | refresh =>
          cases hmove with
          | refreshRaised hlive => exact nomatch hlive
      exact ⟨j, other, (List.getElem?_set_ne (Ne.symm hne)).trans hother, hcreates⟩
    · obtain ⟨row, hrow, rfl⟩ := List.mem_map.1 hx
      refine ⟨k, call', hself, ?_⟩
      cases hmove with
      | signInDone =>
        obtain rfl := List.mem_singleton.1 hrow
        exact .signIn _ _ _ _
      | refreshDone =>
        obtain rfl := List.mem_singleton.1 hrow
        exact .refresh _ _ _
      | _ => exact absurd hrow List.not_mem_nil
  created_once := by
    intro i j other other' sessionId hother hother' hcreates hcreates'
    rcases calls_write hcall hother with ⟨rfl, rfl⟩ | ⟨-, hbefore⟩ <;>
      rcases calls_write hcall hother' with ⟨rfl, rfl⟩ | ⟨-, hbefore'⟩
    · rfl
    · exact (hs.not_created hcall hmove hbefore' hcreates' hcreates).elim
    · exact (hs.not_created hcall hmove hbefore hcreates hcreates').elim
    · exact hs.created_once hbefore hbefore' hcreates hcreates'

end IdentityState.WellFormed

end Move

/-! ### Along a run -/

/-- A call that has read, locked and inserted nothing. -/
structure IdentityCall.Inert (call : IdentityCall) : Prop where
  locks : call.locks = []
  pending : call.pending = none
  creates (sessionId : Uuid) : ¬call.Creates sessionId
  fits (s : IdentityState) : s.Fits call

theorem IdentityRequest.inert_call (request : IdentityRequest) (before : ℕ) : (request.call before).Inert := by
  cases request <;> exact ⟨rfl, rfl, fun _ ↦ (nomatch ·), fun _ ↦ trivial⟩

theorem IdentityCall.inert_failed (call : IdentityCall) : call.failed.Inert := by
  cases call <;> exact ⟨rfl, rfl, fun _ ↦ (nomatch ·), fun _ ↦ trivial⟩

namespace IdentityState.WellFormed

variable {world : IdentityWorld} {s t : IdentityState} {a : IdentityAction}

theorem fits_of_sessions {call : IdentityCall} (h : s.Fits call) (hsessions : t.sessions = s.sessions) :
    t.Fits call := by
  obtain ⟨clock, users, sessions, resetTokens, calls⟩ := s
  obtain ⟨clock', users', sessions', resetTokens', calls'⟩ := t
  obtain rfl : sessions' = sessions := hsessions
  exact h

/-- Calls that have done nothing yet, or nothing any more, do no harm. -/
theorem of_calls (hs : s.WellFormed) (hsessions : t.sessions = s.sessions)
    (hback : ∀ (k : ℕ) (call : IdentityCall), t.calls[k]? = some call → s.calls[k]? = some call ∨ call.Inert)
    (hforth : ∀ (k : ℕ) (call : IdentityCall) (sessionId : Uuid), s.calls[k]? = some call →
      call.Creates sessionId → t.calls[k]? = some call) : t.WellFormed := by
  have hissued : t.issued = s.issued := congrArg (List.map RefreshSession.asIssued) hsessions
  have hpending {k : ℕ} {call : IdentityCall} {session : RefreshSession} (hcall : t.calls[k]? = some call)
      (hpending : call.pending = some session) : s.calls[k]? = some call :=
    (hback k call hcall).resolve_right fun hinert ↦ nomatch hinert.pending.symm.trans hpending
  have hlocks {k : ℕ} {call : IdentityCall} {sessionId : Uuid} (hcall : t.calls[k]? = some call)
      (hlocked : sessionId ∈ call.locks) : s.calls[k]? = some call :=
    (hback k call hcall).resolve_right fun hinert ↦ List.not_mem_nil (hinert.locks ▸ hlocked)
  have hcreates {k : ℕ} {call : IdentityCall} {sessionId : Uuid} (hcall : t.calls[k]? = some call)
      (hcreates : call.Creates sessionId) : s.calls[k]? = some call :=
    (hback k call hcall).resolve_right fun hinert ↦ hinert.creates sessionId hcreates
  refine ⟨hissued ▸ hs.apart, ?_, ?_, ?_, ?_, ?_, ?_, ?_⟩
  · intro k call session hcall hsession
    rw [hissued]
    exact hs.pending_apart (hpending hcall hsession) hsession
  · intro j k call call' session session' hne hcall hcall' hsession hsession'
    exact hs.pending_distinct hne (hpending hcall hsession) (hpending hcall' hsession') hsession hsession'
  · intro j k call call' hne hcall hcall' sessionId hlocked hlocked'
    exact hs.exclusive hne (hlocks hcall hlocked) (hlocks hcall' hlocked') hlocked hlocked'
  · intro k call hcall
    rcases hback k call hcall with hbefore | hinert
    · exact fits_of_sessions (hs.fits hbefore) hsessions
    · exact hinert.fits t
  · intro j k refreshHash refreshHash' old new new' hcall hcall'
    exact hs.once (hcreates hcall (.refresh _ _ _)) (hcreates hcall' (.refresh _ _ _))
  · intro x hx
    obtain ⟨k, call, hcall, hcreated⟩ := hs.created (hissued ▸ hx)
    exact ⟨k, call, hforth k call _ hcall hcreated, hcreated⟩
  · intro j k call call' sessionId hcall hcall' hcreated hcreated'
    exact hs.created_once (hcreates hcall hcreated) (hcreates hcall' hcreated') hcreated hcreated'

/-- **Every step keeps the sessions well-formed.** -/
theorem step (hs : s.WellFormed) (h : IdentityStep world s a t) : t.WellFormed := by
  cases h with
  | start request =>
    refine hs.of_calls rfl (fun k call hcall ↦ ?_) fun k call _ hcall _ ↦ ?_
    · rcases lt_or_ge k s.calls.length with hlt | hge
      · exact .inl ((List.getElem?_append_left hlt).symm.trans hcall)
      · rw [List.getElem?_append_right hge] at hcall
        exact .inr (List.mem_singleton.1 (List.mem_of_getElem? hcall) ▸ request.inert_call _)
    · exact (List.getElem?_append_left (List.getElem?_eq_some_iff.1 hcall).1).trans hcall
  | move hcall hmove => exact hs.write hcall hmove
  | @fail k call hcall hlive =>
    refine hs.of_calls rfl (fun j other hother ↦ ?_) fun j other _ hother hcreates ↦ ?_
    · by_cases hj : k = j
      · subst hj
        have hset := List.getElem?_set_self (a := call.failed) (List.getElem?_eq_some_iff.1 hcall).1
        exact .inr (Option.some.inj (hset.symm.trans hother) ▸ call.inert_failed)
      · exact .inl ((List.getElem?_set_ne hj).symm.trans hother)
    · have hj : k ≠ j := by
        rintro rfl
        obtain rfl := Option.some.inj (hcall.symm.trans hother)
        cases hcreates <;> exact nomatch hlive
      exact (List.getElem?_set_ne hj).trans hother
  | tick hclock => exact hs.of_calls rfl (fun _ _ hcall ↦ .inl hcall) fun _ _ _ hcall _ ↦ hcall
  | expire token => exact hs.of_calls rfl (fun _ _ hcall ↦ .inl hcall) fun _ _ _ hcall _ ↦ hcall

/-- What holds when there are no sessions and no calls. -/
theorem initial (hs : (identityMachine world).init s) : s.WellFormed := by
  obtain ⟨hsessions, hcalls⟩ := hs
  have hissued : s.issued = [] := by rw [issued, hsessions, List.map_nil]
  have hnone {k : ℕ} {call : IdentityCall} (hcall : s.calls[k]? = some call) : False := by
    rw [hcalls] at hcall
    exact nomatch hcall
  exact ⟨hissued ▸ List.Pairwise.nil, fun hcall ↦ (hnone hcall).elim, fun _ hcall ↦ (hnone hcall).elim,
    fun _ hcall ↦ (hnone hcall).elim, fun hcall ↦ (hnone hcall).elim, fun hcall ↦ (hnone hcall).elim,
    fun hx ↦ absurd (hissued ▸ hx) List.not_mem_nil, fun hcall ↦ (hnone hcall).elim⟩

/-- **What holds in every reachable state.** -/
theorem reachable {C : IdentityState → IdentityAction → Prop} (hs : (identityMachine world).Reachable C s) :
    s.WellFormed :=
  hs.invariant (fun _ h ↦ initial h) fun _ _ _ h _ hstep ↦ h.step (identityStep_cases hstep)

end IdentityState.WellFormed

end GenericApp
