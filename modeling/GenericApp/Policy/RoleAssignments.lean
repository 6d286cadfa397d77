import GenericApp.Foundation.Machine
import GenericApp.Policy.PolicyService

/-!
# Assigning and revoking roles

`assign_role` checks that the columns fit the scope type of the role, looks for a row with exactly these
columns, and inserts one where there is none. `revoke_role` looks for a row with exactly these columns and
deletes it. The calls run concurrently; each is two statements, the one that looks and the one that writes,
and the write is committed at once.

Three partial indexes keep the rows apart. The one for projects does not look at the organization, so a user
has a role at a project once, under whatever organization the row names, and `applicable` does not look at it
either. The lookup does. So `revoke_role` misses a row that is applicable in the scope where it names another
organization than the call, and answers that there is no assignment; `RevocationFits` is when it does not.

Authorization of the caller is an outcome that each call brings with it. What invalidates caches is left out.
-/

namespace GenericApp

open Machine PermissionCatalog

/-! ### The relation -/

/-- The partial index that a row falls under, and what it is unique on there. -/
inductive AssignmentIndex
  /-- `uq_policy_assignment_system` -/
  | system (userId roleId : Uuid)
  /-- `uq_policy_assignment_org` -/
  | organization (userId roleId organizationId : Uuid)
  /-- `uq_policy_assignment_project` -/
  | project (userId roleId projectId : Uuid)
deriving DecidableEq

/-- The index entry of a row. -/
def PolicyRoleAssignment.index (row : PolicyRoleAssignment) : AssignmentIndex :=
  match row.organizationId, row.projectId with
  | _, some projectId => .project row.userId row.roleId projectId
  | some organizationId, none => .organization row.userId row.roleId organizationId
  | none, none => .system row.userId row.roleId

/-- The primary key and the three unique indexes. -/
def roleAssignmentSchema : Schema PolicyRoleAssignment PolicyRoleAssignment where
  ident := id
  Compat a b := a.id ≠ b.id ∧ a.index ≠ b.index

instance : DecidableRel roleAssignmentSchema.Compat := fun a b ↦
  inferInstanceAs (Decidable (a.id ≠ b.id ∧ a.index ≠ b.index))

/-- The rows of `policy_role_assignments`. -/
abbrev RoleAssignments := Table roleAssignmentSchema

namespace RoleAssignments

/-- The columns that `get_assignment` looks for. -/
def named (userId roleId : Uuid) (organizationId projectId : Option Uuid) (row : PolicyRoleAssignment) :
    Bool :=
  row.userId = userId ∧ row.roleId = roleId ∧ row.organizationId = organizationId ∧
    row.projectId = projectId

/-- The row of an id. -/
def rowOfId (id : Uuid) (row : PolicyRoleAssignment) : Bool := row.id = id

theorem single_rowOfId (id : Uuid) : roleAssignmentSchema.Single (rowOfId id) := by
  intro a b hcompat ha hb
  have ha : a.id = id := of_decide_eq_true ha
  have hb : b.id = id := of_decide_eq_true hb
  exact hcompat.1 (ha.trans hb.symm)

/-- **No two rows have the same columns**: those that do have the same index entry. -/
theorem single_named (userId roleId : Uuid) (organizationId projectId : Option Uuid) :
    roleAssignmentSchema.Single (named userId roleId organizationId projectId) := by
  intro a b hcompat ha hb
  obtain ⟨hauser, harole, haorganization, haproject⟩ := of_decide_eq_true ha
  obtain ⟨hbuser, hbrole, hborganization, hbproject⟩ := of_decide_eq_true hb
  refine hcompat.2 ?_
  simp only [PolicyRoleAssignment.index, hauser, harole, haorganization, haproject, hbuser, hbrole,
    hborganization, hbproject]

variable (T : RoleAssignments)

/-- `get_assignment` -/
def getAssignment (userId roleId : Uuid) (organizationId projectId : Option Uuid) :
    Option PolicyRoleAssignment :=
  T.find (named userId roleId organizationId projectId)

/-- `delete_assignment` -/
def deleteAssignment (row : PolicyRoleAssignment) : RoleAssignments := T.delete (rowOfId row.id)

end RoleAssignments

open RoleAssignments

/-! ### The calls -/

/-- What a call answers other than its result. -/
inductive PolicyFailure
  /-- 403 `Permission denied` -/
  | permissionDenied
  /-- 404 `Role not found` -/
  | roleNotFound
  /-- 404 `Role assignment not found` -/
  | assignmentNotFound
  /-- 400, with the detail of the scope type -/
  | badScope (detail : String)
deriving DecidableEq

/-- `_validate_assignment_scope` -/
def validateAssignmentScope (scopeType : String) (organizationId projectId : Option Uuid) :
    Except PolicyFailure Unit :=
  if scopeType = scopeSystem then
    if organizationId ≠ none ∨ projectId ≠ none then
      .error (.badScope "System roles cannot be scoped to an organization or project")
    else .ok ()
  else if scopeType = scopeOrganization then
    if organizationId = none ∨ projectId ≠ none then
      .error (.badScope "Organization roles require organization_id and no project_id")
    else .ok ()
  else if scopeType = scopeProject then
    if projectId = none then .error (.badScope "Project roles require project_id") else .ok ()
  else .error (.badScope ("Unknown role scope: " ++ scopeType))

/-- `policy_roles`, in which ids and keys are unique. -/
structure PolicyRoles where
  roles : List PolicyRole
  ids_nodup : (roles.map PolicyRole.id).Nodup
  keys_nodup : (roles.map PolicyRole.key).Nodup

/-- `get_role_by_key` -/
def PolicyRoles.getRoleByKey (R : PolicyRoles) (key : String) : Option PolicyRole :=
  R.roles.find? fun role ↦ role.key = key

/-- The arguments of both calls, and whether the actor may manage roles. -/
structure RoleCall where
  authorized : Bool
  userId : Uuid
  roleKey : String
  organizationId : Option Uuid
  projectId : Option Uuid

variable (R : PolicyRoles)

/-- `assign_role` up to its insert: the role, and the row that is there already. -/
def assignRole (T : RoleAssignments) (call : RoleCall) :
    Except PolicyFailure (PolicyRole × Option PolicyRoleAssignment) :=
  if call.authorized = false then .error .permissionDenied
  else
    match R.getRoleByKey call.roleKey with
    | none => .error .roleNotFound
    | some role =>
      (validateAssignmentScope role.scopeType call.organizationId call.projectId).bind fun _ ↦
        .ok (role, T.getAssignment call.userId role.id call.organizationId call.projectId)

/-- `revoke_role` up to its delete: the row to be deleted. -/
def findRevoked (T : RoleAssignments) (call : RoleCall) : Except PolicyFailure PolicyRoleAssignment :=
  if call.authorized = false then .error .permissionDenied
  else
    match R.getRoleByKey call.roleKey with
    | none => .error .roleNotFound
    | some role =>
      match T.getAssignment call.userId role.id call.organizationId call.projectId with
      | none => .error .assignmentNotFound
      | some row => .ok row

/-- `revoke_role` -/
def revokeRole (T : RoleAssignments) (call : RoleCall) : Except PolicyFailure RoleAssignments :=
  (findRevoked R T call).map fun row ↦ T.deleteAssignment row

/-! ### Concurrent calls -/

/-- What is left to do of a call. -/
inductive PendingWrite
  | insert (userId roleId : Uuid) (organizationId projectId : Option Uuid)
  | delete (row : PolicyRoleAssignment)
  | nothing
deriving DecidableEq

/-- The committed rows, and the calls. -/
structure PolicyState where
  assignments : RoleAssignments
  calls : List PendingWrite

/-- A statement of a call. -/
inductive PolicyAction
  /-- A call of `assign_role` looks. -/
  | assign (call : RoleCall)
  /-- A call of `revoke_role` looks. -/
  | revoke (call : RoleCall)
  /-- A call writes, `id` being what `uuid4` returns where it inserts. -/
  | write (k : ℕ) (id : Uuid)

/-- What a call of `assign_role` has left to do when it has looked. -/
def pendingAssign (T : RoleAssignments) (call : RoleCall) : PendingWrite :=
  match assignRole R T call with
  | .ok (role, none) => .insert call.userId role.id call.organizationId call.projectId
  | _ => .nothing

/-- What a call of `revoke_role` has left to do when it has looked. -/
def pendingRevoke (T : RoleAssignments) (call : RoleCall) : PendingWrite :=
  match findRevoked R T call with
  | .ok row => .delete row
  | .error _ => .nothing

/-- The rows after a write. An insert that breaks an index fails, and leaves nothing. -/
def PendingWrite.apply (T : RoleAssignments) (id : Uuid) : PendingWrite → RoleAssignments
  | insert userId roleId organizationId projectId =>
    (T.insert ⟨id, userId, roleId, organizationId, projectId⟩).getD T
  | delete row => T.deleteAssignment row
  | nothing => T

/-- The calls of `assign_role` and `revoke_role`, on the roles that have been seeded. -/
def policyMachine : Machine PolicyState PolicyAction where
  init s := s.assignments = Table.empty ∧ s.calls = []
  step s
    | .assign call => some { s with calls := s.calls ++ [pendingAssign R s.assignments call] }
    | .revoke call => some { s with calls := s.calls ++ [pendingRevoke R s.assignments call] }
    | .write k id => (s.calls[k]?).map fun pending ↦
      { assignments := pending.apply s.assignments id, calls := s.calls.set k .nothing }

/-! ### The columns fit the role -/

variable {R} {T : RoleAssignments}

/-- The columns of a row fit the scope type of its role. -/
def ScopeFits (R : PolicyRoles) (roleId : Uuid) (organizationId projectId : Option Uuid) : Prop :=
  ∃ role ∈ R.roles, role.id = roleId ∧
    validateAssignmentScope role.scopeType organizationId projectId = .ok ()

theorem mem_of_getRoleByKey {key : String} {role : PolicyRole} (h : R.getRoleByKey key = some role) :
    role ∈ R.roles :=
  List.mem_of_find?_eq_some h

/-- What is inserted fits. -/
theorem scopeFits_of_pendingAssign {call : RoleCall} {userId roleId : Uuid}
    {organizationId projectId : Option Uuid}
    (h : pendingAssign R T call = .insert userId roleId organizationId projectId) :
    ScopeFits R roleId organizationId projectId := by
  rw [pendingAssign] at h
  split at h
  · next role hassign =>
    obtain ⟨-, rfl, rfl, rfl⟩ := PendingWrite.insert.inj h
    rw [assignRole] at hassign
    split at hassign
    · exact nomatch hassign
    · split at hassign
      · exact nomatch hassign
      · next found hrole =>
        rcases hscope : validateAssignmentScope found.scopeType call.organizationId call.projectId with
          failure | fits
        · rw [hscope] at hassign
          exact nomatch hassign
        · rw [hscope] at hassign
          obtain ⟨rfl, -⟩ := Prod.mk.inj (Except.ok.inj hassign)
          exact ⟨found, mem_of_getRoleByKey hrole, rfl, hscope⟩
  · exact nomatch h

/-- Every row fits, and so does every one that is about to be inserted. -/
structure PolicyState.Fits (R : PolicyRoles) (s : PolicyState) : Prop where
  rows : ∀ row ∈ s.assignments.rows, ScopeFits R row.roleId row.organizationId row.projectId
  calls : ∀ userId roleId organizationId projectId,
    .insert userId roleId organizationId projectId ∈ s.calls → ScopeFits R roleId organizationId projectId

theorem mem_apply {id : Uuid} {pending : PendingWrite} {row : PolicyRoleAssignment}
    (h : row ∈ (pending.apply T id).rows) :
    row ∈ T.rows ∨ pending = .insert row.userId row.roleId row.organizationId row.projectId := by
  cases pending with
  | insert userId roleId organizationId projectId =>
    rw [PendingWrite.apply] at h
    rcases hinsert : T.insert ⟨id, userId, roleId, organizationId, projectId⟩ with - | T'
    · rw [hinsert] at h
      exact .inl h
    · rw [hinsert, Option.getD_some, Table.rows_of_insert hinsert, List.mem_append,
        List.mem_singleton] at h
      rcases h with h | rfl
      · exact .inl h
      · exact .inr rfl
  | delete row => exact .inl (Table.mem_delete_iff.1 h).1
  | nothing => exact .inl h

theorem fits_step {s t : PolicyState} {a : PolicyAction} (h : s.Fits R)
    (hstep : (policyMachine R).step s a = some t) : t.Fits R := by
  cases a with
  | assign call =>
    obtain rfl := Option.some.inj hstep
    refine ⟨h.rows, fun userId roleId organizationId projectId hmem ↦ ?_⟩
    rcases List.mem_append.1 hmem with hmem | hnew
    · exact h.calls userId roleId organizationId projectId hmem
    · exact scopeFits_of_pendingAssign (List.mem_singleton.1 hnew).symm
  | revoke call =>
    obtain rfl := Option.some.inj hstep
    refine ⟨h.rows, fun userId roleId organizationId projectId hmem ↦ ?_⟩
    rcases List.mem_append.1 hmem with hmem | hnew
    · exact h.calls userId roleId organizationId projectId hmem
    · have hpending := List.mem_singleton.1 hnew
      rw [pendingRevoke] at hpending
      split at hpending <;> exact nomatch hpending
  | write k id =>
    obtain ⟨pending, hpending, rfl⟩ := Option.map_eq_some_iff.1 hstep
    refine ⟨fun row hrow ↦ ?_, fun userId roleId organizationId projectId hmem ↦ ?_⟩
    · rcases mem_apply hrow with hthere | rfl
      · exact h.rows row hthere
      · exact h.calls _ _ _ _ (List.mem_of_getElem? hpending)
    · rcases List.mem_or_eq_of_mem_set hmem with hthere | hnothing
      · exact h.calls userId roleId organizationId projectId hthere
      · exact nomatch hnothing

theorem fits_of_reachable {s : PolicyState} (h : (policyMachine R).Reachable anyStep s) : s.Fits R := by
  refine Reachable.invariant (fun s hinit ↦ ⟨fun row hrow ↦ ?_, fun _ _ _ _ hmem ↦ ?_⟩)
    (fun s a t hs _ hstep ↦ fits_step hs hstep) h
  · rw [hinit.1] at hrow
    exact absurd hrow List.not_mem_nil
  · rw [hinit.2] at hmem
    exact absurd hmem List.not_mem_nil

/-! ### Where a revocation is effective -/

/-- The rows of an assignment table, as the computation of permissions reads them. -/
def PolicyRoles.database (R : PolicyRoles) (rolePermissions : List PolicyRolePermission)
    (memberships : List OrganizationMembership) (assignments : List PolicyRoleAssignment) : PolicyDatabase where
  roles := R.roles
  rolePermissions := rolePermissions
  assignments := assignments
  memberships := memberships
  role_ids_nodup := R.ids_nodup

/-- No assignment of the role to the user is applicable in the scope, and so no permission is there that
would not be without the user's assignments of the role. -/
structure RevocationEffective (R : PolicyRoles) (T : RoleAssignments) (role : PolicyRole) (user : PolicyUser)
    (organizationId projectId : Option Uuid) : Prop where
  applicable : ∀ row ∈ T.rows, row.userId = user.id → row.roleId = role.id →
    role.applicable organizationId projectId row = false
  permissions : ∀ rolePermissions memberships,
    (R.database rolePermissions memberships T.rows).computePermissions user organizationId projectId ⊆
      (R.database rolePermissions memberships
        (T.rows.filter fun row ↦ !(row.userId = user.id ∧ row.roleId = role.id))).computePermissions
          user organizationId projectId

/-- The scope of the call is that of each of the user's assignments of the role, as far as the assignment is
applicable there: no organization and no project for a system role, no project for an organization role, and
for a project role the organization that its assignment at the project names. -/
def RevocationFits (T : RoleAssignments) (role : PolicyRole) (userId : Uuid)
    (organizationId projectId : Option Uuid) : Prop :=
  ∀ row ∈ T.rows, row.userId = userId → row.roleId = role.id →
    (role.scopeType = scopeSystem → organizationId = none ∧ projectId = none) ∧
    (role.scopeType = scopeOrganization → row.organizationId = organizationId → projectId = none) ∧
    (role.scopeType = scopeProject → row.projectId = projectId → row.organizationId = organizationId)

theorem effective_of_applicable {role : PolicyRole} {user : PolicyUser} {organizationId projectId : Option Uuid}
    (h : ∀ row ∈ T.rows, row.userId = user.id → row.roleId = role.id →
      role.applicable organizationId projectId row = false) (hrole : role ∈ R.roles) :
    RevocationEffective R T role user organizationId projectId := by
  refine ⟨h, fun rolePermissions memberships permission hpermission ↦ ?_⟩
  rw [PolicyDatabase.mem_computePermissions] at hpermission ⊢
  rcases hpermission with hadmin | ⟨row, hrow, found, hfound, huser, hid, happlicable, hgranted⟩ | hmember
  · exact .inl hadmin
  · refine .inr (.inl ⟨row, List.mem_filter.2 ⟨hrow, ?_⟩, found, hfound, huser, hid, happlicable, hgranted⟩)
    have hother : row.roleId ≠ role.id := fun heq ↦ by
      obtain rfl := List.inj_on_of_nodup_map R.ids_nodup hfound hrole (hid.symm.trans heq)
      rw [h row hrow huser heq] at happlicable
      exact Bool.false_ne_true happlicable
    simp [hother]
  · exact .inr (.inr hmember)

/-- For a row that fits its role, to be applicable only under its own columns is what the scope type says. -/
theorem named_of_applicable_iff {role : PolicyRole} {row : PolicyRoleAssignment}
    {organizationId projectId : Option Uuid}
    (hfits : validateAssignmentScope role.scopeType row.organizationId row.projectId = .ok ()) :
    (role.applicable organizationId projectId row = true →
        row.organizationId = organizationId ∧ row.projectId = projectId) ↔
      (role.scopeType = scopeSystem → organizationId = none ∧ projectId = none) ∧
      (role.scopeType = scopeOrganization → row.organizationId = organizationId → projectId = none) ∧
      (role.scopeType = scopeProject → row.projectId = projectId →
        row.organizationId = organizationId) := by
  have hne : scopeOrganization ≠ scopeSystem ∧ scopeProject ≠ scopeSystem ∧
      scopeProject ≠ scopeOrganization := by decide
  rw [validateAssignmentScope] at hfits
  split at hfits
  · next hscope =>
    split at hfits
    · exact nomatch hfits
    · next hnone =>
      obtain ⟨horganization, hproject⟩ := not_or.1 hnone
      rw [not_not] at horganization hproject
      simp only [PolicyRole.applicable, hscope, horganization, hproject, hne.1.symm, hne.2.1.symm, if_true,
        and_self, decide_true, forall_const, false_implies, and_true]
      exact and_congr eq_comm eq_comm
  · next hsystem =>
    split at hfits
    · next hscope =>
      split at hfits
      · exact nomatch hfits
      · next hnone =>
        obtain ⟨horganization, hproject⟩ := not_or.1 hnone
        rw [not_not] at hproject
        simp only [PolicyRole.applicable, hscope, hproject, hne.1, hne.2.2.symm, if_true, if_false,
          false_implies, true_and, and_true, forall_const, decide_eq_true_eq]
        constructor
        · intro h heq
          exact (h ⟨heq ▸ horganization, heq⟩).2.symm
        · rintro h ⟨-, heq⟩
          exact ⟨heq, (h heq).symm⟩
    · next horganizationScope =>
      split at hfits
      · next hscope =>
        split at hfits
        · exact nomatch hfits
        · next hsome =>
          simp only [PolicyRole.applicable, hscope, hne.2.1, hne.2.2, if_false, false_implies, true_and,
            forall_const, decide_eq_true_eq]
          constructor
          · intro h heq
            exact (h ⟨heq ▸ hsome, heq⟩).1
          · rintro h ⟨-, heq⟩
            exact ⟨h heq, heq⟩
      · exact nomatch hfits

/-- The rows that a call of `revoke_role` leaves, when it returns or finds no assignment: those that are not
named as the call names them. -/
theorem mem_of_revoked {call : RoleCall} {role : PolicyRole} {T' : RoleAssignments}
    (hrole : R.getRoleByKey call.roleKey = some role)
    (h : revokeRole R T call = .ok T' ∨
      revokeRole R T call = .error .assignmentNotFound ∧ T' = T) {row : PolicyRoleAssignment} :
    row ∈ T'.rows ↔
      row ∈ T.rows ∧ named call.userId role.id call.organizationId call.projectId row = false := by
  have hsingle := single_named call.userId role.id call.organizationId call.projectId
  rw [revokeRole, findRevoked] at h
  by_cases hauthorized : call.authorized = false
  · rw [if_pos hauthorized] at h
    rcases h with h | ⟨h, -⟩ <;> exact nomatch h
  rw [if_neg hauthorized, hrole] at h
  rcases hfound : T.getAssignment call.userId role.id call.organizationId call.projectId with - | found
  · simp only [hfound] at h
    rcases h with h | ⟨-, rfl⟩
    · exact nomatch h
    · have hnone := Table.find_eq_none_iff.1 hfound
      exact ⟨fun hrow ↦ ⟨hrow, hnone row hrow⟩, And.left⟩
  · simp only [hfound] at h
    rcases h with h | ⟨h, -⟩
    · obtain rfl := Except.ok.inj h
      have hfind : T.find (named call.userId role.id call.organizationId call.projectId) = some found :=
        hfound
      have hnamed := Table.sel_of_find hfind
      have hthere := Table.mem_of_find hfind
      refine Table.mem_delete_iff.trans (and_congr_right fun hrow ↦ ?_)
      constructor
      · refine fun hid ↦ Bool.eq_false_iff.2 fun hsame ↦ ?_
        obtain rfl := Table.eq_of_mem_of_sel hsingle hrow hthere hsame hnamed
        exact absurd (decide_eq_true rfl) (Bool.eq_false_iff.1 hid)
      · refine fun hother ↦ Bool.eq_false_iff.2 fun hid ↦ ?_
        obtain rfl := Table.eq_of_mem_of_sel (single_rowOfId found.id) hrow hthere hid
          (decide_eq_true rfl)
        exact absurd hnamed (Bool.eq_false_iff.1 hother)
    · exact nomatch h

/-- **When a revocation is effective.** In every state that calls can lead to, a call of `revoke_role` that
returns, or that finds no assignment, leaves none that is applicable in its scope exactly if its scope fits. -/
theorem revocation_effective_iff {s : PolicyState} (hs : (policyMachine R).Reachable anyStep s)
    {call : RoleCall} {role : PolicyRole} {T' : RoleAssignments} (user : PolicyUser)
    (huser : call.userId = user.id) (hrole : R.getRoleByKey call.roleKey = some role)
    (h : revokeRole R s.assignments call = .ok T' ∨
      revokeRole R s.assignments call = .error .assignmentNotFound ∧ T' = s.assignments) :
    RevocationEffective R T' role user call.organizationId call.projectId ↔
      RevocationFits s.assignments role user.id call.organizationId call.projectId := by
  have hscope {row : PolicyRoleAssignment} (hrow : row ∈ s.assignments.rows) (hid : row.roleId = role.id) :
      validateAssignmentScope role.scopeType row.organizationId row.projectId = .ok () := by
    obtain ⟨found, hfound, hfoundId, hfits⟩ := (fits_of_reachable hs).rows row hrow
    obtain rfl := List.inj_on_of_nodup_map R.ids_nodup hfound (mem_of_getRoleByKey hrole)
      (hfoundId.trans hid)
    exact hfits
  have hleft {row : PolicyRoleAssignment} (hrowUser : row.userId = user.id) (hid : row.roleId = role.id) :
      row ∈ T'.rows ↔ row ∈ s.assignments.rows ∧
        ¬(row.organizationId = call.organizationId ∧ row.projectId = call.projectId) := by
    rw [mem_of_revoked hrole h, named, decide_eq_false_iff_not, huser]
    simp only [hrowUser, hid, true_and]
  constructor
  · intro heffective row hrow hrowUser hid
    refine (named_of_applicable_iff (hscope hrow hid)).1 fun happlicable ↦ ?_
    by_contra hother
    have hnot := heffective.applicable row ((hleft hrowUser hid).2 ⟨hrow, hother⟩) hrowUser hid
    exact Bool.false_ne_true (hnot.symm.trans happlicable)
  · intro hfits
    refine effective_of_applicable (fun row hrow hrowUser hid ↦ Bool.eq_false_iff.2 fun happlicable ↦ ?_)
      (mem_of_getRoleByKey hrole)
    obtain ⟨hthere, hother⟩ := (hleft hrowUser hid).1 hrow
    exact hother ((named_of_applicable_iff (hscope hthere hid)).2 (hfits row hthere hrowUser hid) happlicable)

/-! ### A revocation that is not -/

/-- The built-in roles. -/
def builtInRoles : PolicyRoles where
  roles := [⟨1, "system_admin", scopeSystem⟩, ⟨2, "org_admin", scopeOrganization⟩,
    ⟨3, "org_member", scopeOrganization⟩, ⟨4, "project_editor", scopeProject⟩]
  ids_nodup := by decide
  keys_nodup := by decide

/-- A call by an administrator about user 20 and the role of an editor of project 7. -/
def editorCall (organizationId : Option Uuid) : RoleCall where
  authorized := true
  userId := 20
  roleKey := "project_editor"
  organizationId := organizationId
  projectId := some 7

/-- User 20 is made an editor of project 7, the assignment naming organization 5. -/
def editorSchedule : List PolicyAction := [.assign (editorCall (some 5)), .write 0 100]

theorem editorSchedule_isSome : ((policyMachine builtInRoles).run anyStep ⟨Table.empty, []⟩
    editorSchedule).isSome = true := by
  decide

/-- The state after it. -/
def editorState : PolicyState := Option.get _ editorSchedule_isSome

theorem reachable_editorState : (policyMachine builtInRoles).Reachable anyStep editorState :=
  reachable_run (by exact ⟨rfl, rfl⟩) editorSchedule_isSome

/-- Named as it was assigned, the assignment is revoked. -/
theorem revocation_effective_editor : ∃ T',
    revokeRole builtInRoles editorState.assignments (editorCall (some 5)) = .ok T' ∧
      RevocationEffective builtInRoles T' ⟨4, "project_editor", scopeProject⟩ ⟨20, false⟩ (some 5)
        (some 7) := by
  refine ⟨editorState.assignments.deleteAssignment ⟨100, 20, 4, some 5, some 7⟩, rfl, ?_⟩
  refine (@revocation_effective_iff builtInRoles editorState reachable_editorState (editorCall (some 5))
    ⟨4, "project_editor", scopeProject⟩ _ ⟨20, false⟩ rfl rfl (.inl rfl)).2 fun row hrow _ _ ↦ ?_
  obtain rfl := List.mem_singleton.1 hrow
  exact ⟨by decide, by decide, by decide⟩

/-- **A revocation fails in silence**: named by the project alone, the assignment is not found, and the user
is still an editor of the project. -/
theorem revocation_misses_project_role :
    (policyMachine builtInRoles).Reachable anyStep editorState ∧
    revokeRole builtInRoles editorState.assignments (editorCall none) = .error .assignmentNotFound ∧
    ¬RevocationEffective builtInRoles editorState.assignments ⟨4, "project_editor", scopeProject⟩
      ⟨20, false⟩ none (some 7) := by
  refine ⟨reachable_editorState, rfl, fun h ↦ ?_⟩
  exact absurd (h.applicable ⟨100, 20, 4, some 5, some 7⟩ List.mem_cons_self rfl rfl) (by decide)

end GenericApp
