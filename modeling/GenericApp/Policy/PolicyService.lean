import Mathlib.Data.Finset.Basic
import GenericApp.Workers.ApplicationJob

/-!
# The permissions of a user in a scope

`_compute_permissions` collects the permissions that a user has at an organization and a project, either of
which may be absent: all of them for an administrator, those of the roles that the user's assignments make
applicable in the scope, and those that a membership in the organization stands for. Where no role has been
seeded yet, only the memberships count.

Whether an assignment is applicable is decided by the scope type of its role, and each scope type looks at
other columns of the assignment. A role of a type that the code does not know is never applicable.

The result is a set, and `mem_computePermissions` reads it off the rows: a permission is there because the
user is an administrator, because of a role, or because of a membership.

The cache in front of the computation is not part of it.
-/

namespace GenericApp

open Py

/-! ### The catalog -/

namespace PermissionCatalog

/-- `ALL_PERMISSIONS` -/
def allPermissions : List String :=
  ["project.read", "project.create", "project.update", "project.delete", "rag.read", "rag.manage",
    "users.manage", "billing.read", "billing.manage", "api_keys.manage", "webhooks.manage", "jobs.read",
    "jobs.retry", "jobs.cancel", "diagnostics.read", "admin.manage"]

/-- `ORG_MEMBER_PERMISSIONS` -/
def orgMemberPermissions : List String := ["project.read", "project.create", "rag.read", "jobs.read"]

/-- `ORG_ADMIN_PERMISSIONS` -/
def orgAdminPermissions : List String :=
  orgMemberPermissions ++
    ["project.update", "project.delete", "rag.manage", "users.manage", "billing.read", "billing.manage",
      "api_keys.manage", "webhooks.manage", "jobs.retry", "jobs.cancel", "diagnostics.read"]

/-- `SCOPE_SYSTEM` -/
def scopeSystem : String := "system"

/-- `SCOPE_ORGANIZATION` -/
def scopeOrganization : String := "organization"

/-- `SCOPE_PROJECT` -/
def scopeProject : String := "project"

end PermissionCatalog

open PermissionCatalog

/-! ### Rows -/

/-- `PolicyRole`, whose scope type is any text. -/
structure PolicyRole where
  id : Uuid
  key : String
  scopeType : String
deriving DecidableEq

/-- `PolicyRolePermission` -/
structure PolicyRolePermission where
  roleId : Uuid
  permissionKey : String
deriving DecidableEq

/-- `PolicyRoleAssignment` -/
structure PolicyRoleAssignment where
  id : Uuid
  userId : Uuid
  roleId : Uuid
  organizationId : Option Uuid
  projectId : Option Uuid
deriving DecidableEq

/-- `OrganizationMembership` -/
structure OrganizationMembership where
  userId : Uuid
  organizationId : Uuid
  role : String
deriving DecidableEq

/-- What the policy reads of a `User`. -/
structure PolicyUser where
  id : Uuid
  isAdmin : Bool

/-- The rows that permissions are computed from. The id of a role is its primary key. -/
structure PolicyDatabase where
  roles : List PolicyRole
  rolePermissions : List PolicyRolePermission
  assignments : List PolicyRoleAssignment
  memberships : List OrganizationMembership
  role_ids_nodup : (roles.map PolicyRole.id).Nodup

/-! ### The computation -/

/-- Whether an assignment of the role counts at the organization and the project. -/
def PolicyRole.applicable (role : PolicyRole) (organizationId projectId : Option Uuid)
    (assignment : PolicyRoleAssignment) : Bool :=
  if role.scopeType = scopeSystem then
    assignment.organizationId = none ∧ assignment.projectId = none
  else if role.scopeType = scopeOrganization then
    organizationId ≠ none ∧ assignment.organizationId = organizationId ∧ assignment.projectId = none
  else
    role.scopeType = scopeProject ∧ projectId ≠ none ∧ assignment.projectId = projectId

namespace PolicyDatabase

variable (db : PolicyDatabase)

/-- `role_by_id.get(role_id)` -/
def roleById (roleId : Uuid) : Option PolicyRole := db.roles.find? fun role ↦ role.id = roleId

/-- `list_assignments_for_user` -/
def listAssignmentsForUser (userId : Uuid) : List PolicyRoleAssignment :=
  db.assignments.filter fun assignment ↦ assignment.userId = userId

/-- `list_memberships_for_user` -/
def listMembershipsForUser (userId : Uuid) : List OrganizationMembership :=
  db.memberships.filter fun membership ↦ membership.userId = userId

/-- `list_permission_keys_for_role_ids` -/
def listPermissionKeysForRoleIds (roleIds : List Uuid) : Finset String :=
  ((db.rolePermissions.filter fun granted ↦ roleIds.contains granted.roleId).map
    PolicyRolePermission.permissionKey).toFinset

/-- `applicable_role_ids`: an assignment of a role that there is not is passed over. -/
def applicableRoleIds (user : PolicyUser) (organizationId projectId : Option Uuid) : List Uuid :=
  (db.listAssignmentsForUser user.id).filterMap fun assignment ↦
    (db.roleById assignment.roleId).bind fun role ↦
      if role.applicable organizationId projectId assignment then some role.id else none

/-- What a membership stands for. -/
def membershipGrants (membership : OrganizationMembership) : Finset String :=
  let role := lower (orStr (some membership.role) "member")
  if role = "owner" ∨ role = "admin" then orgAdminPermissions.toFinset else orgMemberPermissions.toFinset

/-- `_membership_permissions`: `granted`, and over it what the memberships in the organization stand for. -/
def membershipPermissions (user : PolicyUser) (organizationId : Option Uuid) (granted : Finset String) :
    Finset String :=
  match organizationId with
  | none => granted
  | some organizationId =>
    (db.listMembershipsForUser user.id).foldl (fun granted membership ↦
      if membership.organizationId ≠ organizationId then granted
      else granted ∪ membershipGrants membership) granted

/-- `_compute_permissions` -/
def computePermissions (user : PolicyUser) (organizationId projectId : Option Uuid) : Finset String :=
  let granted := if user.isAdmin then allPermissions.toFinset else ∅
  if db.roles.isEmpty then db.membershipPermissions user organizationId granted
  else
    db.membershipPermissions user organizationId
      (granted ∪ db.listPermissionKeysForRoleIds (db.applicableRoleIds user organizationId projectId))

/-! ### Where a permission comes from -/

variable {db} {user : PolicyUser} {organizationId projectId : Option Uuid}

theorem roleById_eq_some_iff {roleId : Uuid} {role : PolicyRole} :
    db.roleById roleId = some role ↔ role ∈ db.roles ∧ role.id = roleId := by
  constructor
  · intro h
    rw [roleById] at h
    exact ⟨List.mem_of_find?_eq_some h, by simpa using List.find?_some h⟩
  · rintro ⟨hrole, rfl⟩
    show db.roles.find? (fun row ↦ row.id = role.id) = some role
    rcases hfind : db.roles.find? (fun row ↦ row.id = role.id) with - | found
    · have hne : role.id ≠ role.id := by simpa using List.find?_eq_none.1 hfind role hrole
      exact absurd rfl hne
    · have hid : found.id = role.id := by simpa using List.find?_some hfind
      exact hfind.trans (congrArg some
        (List.inj_on_of_nodup_map db.role_ids_nodup (List.mem_of_find?_eq_some hfind) hrole hid))

/-- A role of the user that is applicable in the scope carries the permission. -/
def RoleGrants (db : PolicyDatabase) (user : PolicyUser) (organizationId projectId : Option Uuid)
    (permission : String) : Prop :=
  ∃ assignment ∈ db.assignments, ∃ role ∈ db.roles, assignment.userId = user.id ∧
    assignment.roleId = role.id ∧ role.applicable organizationId projectId assignment = true ∧
      ⟨role.id, permission⟩ ∈ db.rolePermissions

/-- A membership of the user in the organization stands for the permission. -/
def MembershipGrants (db : PolicyDatabase) (user : PolicyUser) (organizationId : Option Uuid)
    (permission : String) : Prop :=
  ∃ membership ∈ db.memberships, membership.userId = user.id ∧
    some membership.organizationId = organizationId ∧ permission ∈ membershipGrants membership

theorem mem_applicableRoleIds {roleId : Uuid} :
    roleId ∈ db.applicableRoleIds user organizationId projectId ↔
      ∃ assignment ∈ db.assignments, ∃ role ∈ db.roles, assignment.userId = user.id ∧
        assignment.roleId = role.id ∧ role.applicable organizationId projectId assignment = true ∧
          role.id = roleId := by
  simp only [applicableRoleIds, listAssignmentsForUser, List.mem_filterMap, List.mem_filter,
    decide_eq_true_eq, Option.bind_eq_some_iff, roleById_eq_some_iff]
  constructor
  · rintro ⟨assignment, ⟨hassignment, huser⟩, role, ⟨hrole, hid⟩, hgrant⟩
    split at hgrant
    · next happlicable =>
      exact ⟨assignment, hassignment, role, hrole, huser, hid.symm, happlicable, Option.some.inj hgrant⟩
    · exact nomatch hgrant
  · rintro ⟨assignment, hassignment, role, hrole, huser, hid, happlicable, hroleId⟩
    exact ⟨assignment, ⟨hassignment, huser⟩, role, ⟨hrole, hid.symm⟩,
      by rw [if_pos happlicable, hroleId]⟩

theorem mem_listPermissionKeys {permission : String} {roleIds : List Uuid} :
    permission ∈ db.listPermissionKeysForRoleIds roleIds ↔
      ∃ roleId ∈ roleIds, ⟨roleId, permission⟩ ∈ db.rolePermissions := by
  simp only [listPermissionKeysForRoleIds, List.mem_toFinset, List.mem_map, List.mem_filter,
    List.contains_iff_mem]
  constructor
  · rintro ⟨granted, ⟨hgranted, hrole⟩, rfl⟩
    exact ⟨granted.roleId, hrole, hgranted⟩
  · rintro ⟨roleId, hrole, hgranted⟩
    exact ⟨⟨roleId, permission⟩, ⟨hgranted, hrole⟩, rfl⟩

/-- What the roles give, read off the rows. -/
theorem mem_roleKeys {permission : String} :
    permission ∈ db.listPermissionKeysForRoleIds (db.applicableRoleIds user organizationId projectId) ↔
      db.RoleGrants user organizationId projectId permission := by
  rw [mem_listPermissionKeys]
  constructor
  · rintro ⟨roleId, hroleId, hgranted⟩
    obtain ⟨assignment, hassignment, role, hrole, huser, hid, happlicable, rfl⟩ :=
      mem_applicableRoleIds.1 hroleId
    exact ⟨assignment, hassignment, role, hrole, huser, hid, happlicable, hgranted⟩
  · rintro ⟨assignment, hassignment, role, hrole, huser, hid, happlicable, hgranted⟩
    exact ⟨role.id, mem_applicableRoleIds.2
      ⟨assignment, hassignment, role, hrole, huser, hid, happlicable, rfl⟩, hgranted⟩

/-- A loop over memberships adds what those at the organization stand for. -/
theorem mem_foldl_memberships {permission : String} {organization : Uuid}
    (memberships : List OrganizationMembership) (granted : Finset String) :
    permission ∈ memberships.foldl (fun granted membership ↦
        if membership.organizationId ≠ organization then granted
        else granted ∪ membershipGrants membership) granted ↔
      permission ∈ granted ∨ ∃ membership ∈ memberships, membership.organizationId = organization ∧
        permission ∈ membershipGrants membership := by
  induction memberships generalizing granted with
  | nil => simp
  | cons membership memberships ih =>
    rw [List.foldl_cons, ih, List.exists_mem_cons_iff]
    by_cases horganization : membership.organizationId = organization
    · simp [horganization, or_assoc]
    · simp [horganization]

theorem mem_membershipPermissions {permission : String} {granted : Finset String} :
    permission ∈ db.membershipPermissions user organizationId granted ↔
      permission ∈ granted ∨ db.MembershipGrants user organizationId permission := by
  rcases organizationId with - | organization
  · simp [membershipPermissions, MembershipGrants]
  · rw [membershipPermissions, mem_foldl_memberships]
    simp only [MembershipGrants, listMembershipsForUser, List.mem_filter, decide_eq_true_eq, and_assoc,
      Option.some.injEq]

/-- **Every permission has a source**, and every source counts. -/
theorem mem_computePermissions {permission : String} :
    permission ∈ db.computePermissions user organizationId projectId ↔
      (user.isAdmin = true ∧ permission ∈ allPermissions) ∨
        db.RoleGrants user organizationId projectId permission ∨
          db.MembershipGrants user organizationId permission := by
  have hadmin : permission ∈ (if user.isAdmin = true then allPermissions.toFinset else ∅) ↔
      user.isAdmin = true ∧ permission ∈ allPermissions := by
    by_cases h : user.isAdmin = true <;> simp [h]
  rw [computePermissions]
  split
  · next hempty =>
    have hroles : ¬db.RoleGrants user organizationId projectId permission := by
      rintro ⟨-, -, role, hrole, -⟩
      rw [List.isEmpty_iff.1 hempty] at hrole
      exact List.not_mem_nil hrole
    rw [mem_membershipPermissions, hadmin]
    simp only [hroles, false_or]
  · rw [mem_membershipPermissions, Finset.mem_union, hadmin, mem_roleKeys, or_assoc]

end PolicyDatabase

end GenericApp
