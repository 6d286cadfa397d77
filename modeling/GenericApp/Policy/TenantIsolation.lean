import GenericApp.Policy.PolicyService

/-!
# Permissions do not cross tenants

What a user may do at an organization and a project does not depend on other users, nor on what is granted at
another organization or at another project. The rows of `AssignmentElsewhere` and `MembershipElsewhere` are
those that a tenant is not concerned with; `SameView` holds between two databases with the same rows apart
from them, and the permissions are the same in both, whatever the scope types of the roles are and whether
any role has been seeded.

An assignment counts as organization-scoped, or as project-scoped, by its role or by the columns that it
fills in. The two readings differ for an assignment whose columns do not fit its role, and neither lets such
an assignment through.
-/

namespace GenericApp

open PermissionCatalog

namespace PolicyDatabase

variable {db db' : PolicyDatabase} {user : PolicyUser} {organizationId projectId : Option Uuid}

/-! ### Rows elsewhere -/

/-- The scope type of the role that is assigned. -/
def HasScope (db : PolicyDatabase) (assignment : PolicyRoleAssignment) (scopeType : String) : Prop :=
  ∃ role ∈ db.roles, role.id = assignment.roleId ∧ role.scopeType = scopeType

/-- An assignment of an organization role, or one that names an organization and no project. -/
def OrganizationScoped (db : PolicyDatabase) (assignment : PolicyRoleAssignment) : Prop :=
  db.HasScope assignment scopeOrganization ∨
    assignment.organizationId ≠ none ∧ assignment.projectId = none

/-- An assignment of a project role, or one that names a project. -/
def ProjectScoped (db : PolicyDatabase) (assignment : PolicyRoleAssignment) : Prop :=
  db.HasScope assignment scopeProject ∨ assignment.projectId ≠ none

/-- An assignment of another user, one scoped to another organization, or one scoped to another project. -/
def AssignmentElsewhere (db : PolicyDatabase) (user : PolicyUser) (organizationId projectId : Option Uuid)
    (assignment : PolicyRoleAssignment) : Prop :=
  assignment.userId ≠ user.id ∨
    (db.OrganizationScoped assignment ∧ assignment.organizationId ≠ none ∧
      assignment.organizationId ≠ organizationId) ∨
    (db.ProjectScoped assignment ∧ assignment.projectId ≠ none ∧ assignment.projectId ≠ projectId)

/-- A membership of another user, or in another organization. -/
def MembershipElsewhere (user : PolicyUser) (organizationId : Option Uuid)
    (membership : OrganizationMembership) : Prop :=
  membership.userId ≠ user.id ∨ some membership.organizationId ≠ organizationId

/-- **An assignment elsewhere is not applicable.** -/
theorem not_applicable_of_elsewhere {assignment : PolicyRoleAssignment} {role : PolicyRole}
    (hrole : role ∈ db.roles) (hid : assignment.roleId = role.id) (huser : assignment.userId = user.id)
    (h : db.AssignmentElsewhere user organizationId projectId assignment) :
    role.applicable organizationId projectId assignment = false := by
  have hscope {scopeType : String} (hhas : db.HasScope assignment scopeType) :
      role.scopeType = scopeType := by
    obtain ⟨row, hrow, hrowId, rfl⟩ := hhas
    rw [List.inj_on_of_nodup_map db.role_ids_nodup hrow hrole (hrowId.trans hid)]
  have hne : scopeOrganization ≠ scopeSystem ∧ scopeProject ≠ scopeSystem ∧
      scopeProject ≠ scopeOrganization := by decide
  rcases h with hother | ⟨horganization, hnamed, helsewhere⟩ | ⟨hproject, hnamed, helsewhere⟩
  · exact absurd huser hother
  · rcases horganization with hhas | ⟨-, hnone⟩
    · simp [PolicyRole.applicable, hscope hhas, hne.1, helsewhere]
    · rw [PolicyRole.applicable]
      split
      · simp [hnamed]
      · split
        · simp [helsewhere]
        · simp only [hnone, decide_eq_false_iff_not]
          rintro ⟨-, hsome, heq⟩
          exact hsome heq.symm
  · rcases hproject with hhas | -
    · simp [PolicyRole.applicable, hscope hhas, hne.2.1, hne.2.2, helsewhere]
    · rw [PolicyRole.applicable]
      split
      · simp [hnamed]
      · split
        · simp [hnamed]
        · simp [helsewhere]

/-! ### Two databases with one view -/

/-- The two databases differ in rows elsewhere only. -/
structure SameView (user : PolicyUser) (organizationId projectId : Option Uuid) (db db' : PolicyDatabase) :
    Prop where
  roles : db'.roles = db.roles
  rolePermissions : db'.rolePermissions = db.rolePermissions
  assignments : ∀ assignment, ¬db.AssignmentElsewhere user organizationId projectId assignment →
    (assignment ∈ db'.assignments ↔ assignment ∈ db.assignments)
  memberships : ∀ membership, ¬MembershipElsewhere user organizationId membership →
    (membership ∈ db'.memberships ↔ membership ∈ db.memberships)

theorem elsewhere_iff_of_roles (h : db'.roles = db.roles) (assignment : PolicyRoleAssignment) :
    db'.AssignmentElsewhere user organizationId projectId assignment ↔
      db.AssignmentElsewhere user organizationId projectId assignment := by
  simp only [AssignmentElsewhere, OrganizationScoped, ProjectScoped, HasScope, h]

theorem SameView.refl (db : PolicyDatabase) : SameView user organizationId projectId db db :=
  ⟨rfl, rfl, fun _ _ ↦ Iff.rfl, fun _ _ ↦ Iff.rfl⟩

theorem SameView.symm (h : SameView user organizationId projectId db db') :
    SameView user organizationId projectId db' db where
  roles := h.roles.symm
  rolePermissions := h.rolePermissions.symm
  assignments assignment hhere :=
    (h.assignments assignment fun helsewhere ↦
      hhere ((elsewhere_iff_of_roles h.roles assignment).2 helsewhere)).symm
  memberships membership hhere := (h.memberships membership hhere).symm

theorem SameView.trans {db'' : PolicyDatabase} (h : SameView user organizationId projectId db db')
    (h' : SameView user organizationId projectId db' db'') :
    SameView user organizationId projectId db db'' where
  roles := h'.roles.trans h.roles
  rolePermissions := h'.rolePermissions.trans h.rolePermissions
  assignments assignment hhere :=
    (h'.assignments assignment fun helsewhere ↦
      hhere ((elsewhere_iff_of_roles h.roles assignment).1 helsewhere)).trans
        (h.assignments assignment hhere)
  memberships membership hhere := (h'.memberships membership hhere).trans (h.memberships membership hhere)

theorem SameView.roleGrants (h : SameView user organizationId projectId db db') {permission : String}
    (hgrant : db.RoleGrants user organizationId projectId permission) :
    db'.RoleGrants user organizationId projectId permission := by
  obtain ⟨assignment, hassignment, role, hrole, huser, hid, happlicable, hgranted⟩ := hgrant
  have hhere : ¬db.AssignmentElsewhere user organizationId projectId assignment := fun helsewhere ↦ by
    rw [not_applicable_of_elsewhere hrole hid huser helsewhere] at happlicable
    exact Bool.false_ne_true happlicable
  exact ⟨assignment, (h.assignments assignment hhere).2 hassignment, role, h.roles ▸ hrole, huser, hid,
    happlicable, h.rolePermissions ▸ hgranted⟩

theorem SameView.membershipGrants (h : SameView user organizationId projectId db db') {permission : String}
    (hgrant : db.MembershipGrants user organizationId permission) :
    db'.MembershipGrants user organizationId permission := by
  obtain ⟨membership, hmembership, huser, horganization, hgranted⟩ := hgrant
  have hhere : ¬MembershipElsewhere user organizationId membership := by
    rintro (hother | helsewhere)
    · exact hother huser
    · exact helsewhere horganization
  exact ⟨membership, (h.memberships membership hhere).2 hmembership, huser, horganization, hgranted⟩

theorem SameView.mem_of_mem (h : SameView user organizationId projectId db db') {permission : String}
    (hpermission : permission ∈ db.computePermissions user organizationId projectId) :
    permission ∈ db'.computePermissions user organizationId projectId := by
  rw [mem_computePermissions] at hpermission ⊢
  rcases hpermission with hadmin | hrole | hmembership
  · exact .inl hadmin
  · exact .inr (.inl (h.roleGrants hrole))
  · exact .inr (.inr (h.membershipGrants hmembership))

/-- **One view, one set of permissions.** -/
theorem SameView.computePermissions_eq (h : SameView user organizationId projectId db db') :
    db'.computePermissions user organizationId projectId =
      db.computePermissions user organizationId projectId :=
  Finset.ext fun _ ↦ ⟨h.symm.mem_of_mem, h.mem_of_mem⟩

/-! ### Edits -/

/-- Some rows elsewhere are replaced by others: an addition where there were none, a removal where none take
their place. -/
inductive EditElsewhere (user : PolicyUser) (organizationId projectId : Option Uuid) (db : PolicyDatabase) :
    PolicyDatabase → Prop
  | assignments (before old after new : List PolicyRoleAssignment)
      (hrows : db.assignments = before ++ old ++ after)
      (helsewhere : ∀ assignment ∈ old ++ new,
        db.AssignmentElsewhere user organizationId projectId assignment) :
      EditElsewhere user organizationId projectId db { db with assignments := before ++ new ++ after }
  | memberships (before old after new : List OrganizationMembership)
      (hrows : db.memberships = before ++ old ++ after)
      (helsewhere : ∀ membership ∈ old ++ new, MembershipElsewhere user organizationId membership) :
      EditElsewhere user organizationId projectId db { db with memberships := before ++ new ++ after }

/-- Rows that are kept are those outside the replaced part. -/
theorem mem_replaced_iff {α : Type} {P : α → Prop} {rows before old after new : List α}
    (hrows : rows = before ++ old ++ after) (hP : ∀ x ∈ old ++ new, P x) {x : α} (hx : ¬P x) :
    x ∈ before ++ new ++ after ↔ x ∈ rows := by
  have hold : x ∉ old := fun hmem ↦ hx (hP x (List.mem_append_left _ hmem))
  have hnew : x ∉ new := fun hmem ↦ hx (hP x (List.mem_append_right _ hmem))
  simp [hrows, hold, hnew]

theorem EditElsewhere.sameView (h : EditElsewhere user organizationId projectId db db') :
    SameView user organizationId projectId db db' := by
  cases h with
  | assignments before old after new hrows helsewhere =>
    exact ⟨rfl, rfl, fun _ hhere ↦ mem_replaced_iff hrows helsewhere hhere, fun _ _ ↦ Iff.rfl⟩
  | memberships before old after new hrows helsewhere =>
    exact ⟨rfl, rfl, fun _ _ ↦ Iff.rfl, fun _ hhere ↦ mem_replaced_iff hrows helsewhere hhere⟩

/-- Any number of edits elsewhere. -/
def EditedElsewhere (user : PolicyUser) (organizationId projectId : Option Uuid) :
    PolicyDatabase → PolicyDatabase → Prop :=
  Relation.ReflTransGen (EditElsewhere user organizationId projectId)

theorem EditedElsewhere.sameView (h : EditedElsewhere user organizationId projectId db db') :
    SameView user organizationId projectId db db' := by
  induction h with
  | refl => exact SameView.refl db
  | tail _ hedit ih => exact ih.trans hedit.sameView

/-! ### Tenants -/

/-- The permission comes from a role that is assigned at exactly this organization and project, in the
columns that fit its scope type, or from the membership in the organization. -/
inductive GrantedHere (db : PolicyDatabase) (user : PolicyUser) (organizationId projectId : Option Uuid)
    (permission : String) : Prop
  | system (assignment : PolicyRoleAssignment) (role : PolicyRole) (hassignment : assignment ∈ db.assignments)
      (hrole : role ∈ db.roles) (huser : assignment.userId = user.id) (hid : assignment.roleId = role.id)
      (hgranted : ⟨role.id, permission⟩ ∈ db.rolePermissions) (hscope : role.scopeType = scopeSystem)
      (hunscoped : assignment.organizationId = none ∧ assignment.projectId = none)
  | organization (assignment : PolicyRoleAssignment) (role : PolicyRole) (organization : Uuid)
      (hassignment : assignment ∈ db.assignments) (hrole : role ∈ db.roles)
      (huser : assignment.userId = user.id) (hid : assignment.roleId = role.id)
      (hgranted : ⟨role.id, permission⟩ ∈ db.rolePermissions) (hscope : role.scopeType = scopeOrganization)
      (hat : organizationId = some organization ∧ assignment.organizationId = some organization ∧
        assignment.projectId = none)
  | project (assignment : PolicyRoleAssignment) (role : PolicyRole) (project : Uuid)
      (hassignment : assignment ∈ db.assignments) (hrole : role ∈ db.roles)
      (huser : assignment.userId = user.id) (hid : assignment.roleId = role.id)
      (hgranted : ⟨role.id, permission⟩ ∈ db.rolePermissions) (hscope : role.scopeType = scopeProject)
      (hat : projectId = some project ∧ assignment.projectId = some project)
  | membership (membership : OrganizationMembership) (organization : Uuid)
      (hmembership : membership ∈ db.memberships) (huser : membership.userId = user.id)
      (hat : organizationId = some organization ∧ membership.organizationId = organization)
      (hgranted : permission ∈ membershipGrants membership)

theorem grantedHere_of_roleGrants {permission : String}
    (h : db.RoleGrants user organizationId projectId permission) :
    db.GrantedHere user organizationId projectId permission := by
  obtain ⟨assignment, hassignment, role, hrole, huser, hid, happlicable, hgranted⟩ := h
  rw [PolicyRole.applicable] at happlicable
  split at happlicable
  · next hscope =>
    exact .system assignment role hassignment hrole huser hid hgranted hscope
      (of_decide_eq_true happlicable)
  · split at happlicable
    · next hscope =>
      obtain ⟨hsome, hat, hnone⟩ := of_decide_eq_true happlicable
      obtain ⟨organization, rfl⟩ := Option.ne_none_iff_exists'.1 hsome
      exact .organization assignment role organization hassignment hrole huser hid hgranted hscope
        ⟨rfl, hat, hnone⟩
    · obtain ⟨hscope, hsome, hat⟩ := of_decide_eq_true happlicable
      obtain ⟨project, rfl⟩ := Option.ne_none_iff_exists'.1 hsome
      exact .project assignment role project hassignment hrole huser hid hgranted hscope ⟨rfl, hat⟩

/-- **Permissions do not cross tenants.** Edits elsewhere leave them as they are, and what a user who is no
administrator may do is granted here; where no organization and no project is named, by a system role. -/
theorem permissions_stay_in_tenant (db : PolicyDatabase) (user : PolicyUser)
    (organizationId projectId : Option Uuid) :
    (∀ db', EditedElsewhere user organizationId projectId db db' →
      db'.computePermissions user organizationId projectId =
        db.computePermissions user organizationId projectId) ∧
    (user.isAdmin = false → ∀ permission ∈ db.computePermissions user organizationId projectId,
      db.GrantedHere user organizationId projectId permission) ∧
    (user.isAdmin = false → ∀ permission ∈ db.computePermissions user none none,
      ∃ assignment ∈ db.assignments, ∃ role ∈ db.roles, assignment.userId = user.id ∧
        assignment.roleId = role.id ∧ role.scopeType = scopeSystem ∧
          assignment.organizationId = none ∧ assignment.projectId = none ∧
            ⟨role.id, permission⟩ ∈ db.rolePermissions) := by
  have hhere (hadmin : user.isAdmin = false) (organizationId projectId : Option Uuid) (permission : String)
      (h : permission ∈ db.computePermissions user organizationId projectId) :
      db.GrantedHere user organizationId projectId permission := by
    rcases mem_computePermissions.1 h with ⟨hyes, -⟩ | hrole | hmembership
    · exact absurd (hadmin.symm.trans hyes) Bool.false_ne_true
    · exact grantedHere_of_roleGrants hrole
    · obtain ⟨membership, hmembership, huser, hat, hgranted⟩ := hmembership
      exact .membership membership membership.organizationId hmembership huser ⟨hat.symm, rfl⟩ hgranted
  refine ⟨fun db' hedited ↦ hedited.sameView.computePermissions_eq,
    fun hadmin ↦ hhere hadmin organizationId projectId, fun hadmin permission hpermission ↦ ?_⟩
  cases hhere hadmin none none permission hpermission with
  | system assignment role hassignment hrole huser hid hgranted hscope hunscoped =>
    exact ⟨assignment, hassignment, role, hrole, huser, hid, hscope, hunscoped.1, hunscoped.2, hgranted⟩
  | organization _ _ _ _ _ _ _ _ _ hat => exact nomatch hat.1
  | project _ _ _ _ _ _ _ _ _ hat => exact nomatch hat.1
  | membership _ _ _ _ hat => exact nomatch hat.1

/-- An editor of project 7 who is made an editor of project 8 as well. -/
def editorsDatabase (projects : List Uuid) : PolicyDatabase where
  roles := [⟨3, "project_editor", scopeProject⟩]
  rolePermissions := [⟨3, "project.update"⟩]
  assignments := projects.map fun project ↦ ⟨project, 1, 3, none, some project⟩
  memberships := []
  role_ids_nodup := List.nodup_singleton _

/-- Nothing changes at project 7. -/
theorem permissions_stay_in_tenant_editor :
    (editorsDatabase [7, 8]).computePermissions ⟨1, false⟩ none (some 7) =
      (editorsDatabase [7]).computePermissions ⟨1, false⟩ none (some 7) := by
  refine (permissions_stay_in_tenant (editorsDatabase [7]) ⟨1, false⟩ none (some 7)).1 _ (.single ?_)
  refine .assignments [⟨7, 1, 3, none, some 7⟩] [] [] [⟨8, 1, 3, none, some 8⟩] rfl fun assignment hmem ↦ ?_
  obtain rfl := List.mem_singleton.1 hmem
  exact .inr (.inr ⟨.inr (by decide), by decide, by decide⟩)

end PolicyDatabase

end GenericApp
