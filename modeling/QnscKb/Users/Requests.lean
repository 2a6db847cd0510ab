import QnscKb.Users.Model

/-!
# Users — Requests

The administration of users, roles and departments (`src/api/routers/auth.py`): what each request
makes of the tables, or `none` where it is refused.
-/

namespace QnscKb.Users
open Access

structure ManagedUserCreate where
  email : Email
  password : Option String
  dept : Option String
  departmentIds : Option (List Id)
  role : String
  roleIds : Option (List Id)
  ownedDepartmentIds : Option (List Id)

/-- `dept` is `none` where the field was not set. -/
structure ManagedUserUpdate where
  dept : Option (Option String)
  departmentIds : Option (List Id)
  role : Option String
  password : Option String
  email : Option Email
  active : Option Bool
  roleIds : Option (List Id)
  ownedDepartmentIds : Option (List Id)

structure InvitationCreate where
  email : Email
  role : String
  audienceIds : List Id

/-- `other` says that a field without a part here was given. -/
structure DepartmentUpdate where
  name : Option String
  active : Option Bool
  other : Bool

/-! ### What becomes of an account -/

/-- The departments of a new account. -/
structure Placement where
  memberships : List Department
  primary : Option Department
  owned : List Department

namespace Account

def member (account : Account) (memberships : List Department) (dept : Option String) : Account :=
  { account with departmentIds := memberships.map (·.id), dept := dept }

def keptDept (account : Account) (memberships : List Department) : Option String :=
  if account.dept.any fun name => memberships.any fun row => row.name == name then account.dept
  else memberships.head?.map (·.name)

def owner (account : Account) (departments : List Department) : Account :=
  { account with ownerships := applyDepartmentOwnership account.ownerships departments }

def setActive (account : Account) (active : Bool) : Account := { account with active := active }

def withPassword (account : Account) (password : Option String) : Account :=
  { account with
    passwordHash := (password.map Auth.getPasswordHash).getD account.passwordHash }

def reinvited (account : Account) (item : Invitation) (password : String) : Account :=
  { account with
    role := item.role, active := true, passwordHash := Auth.getPasswordHash password }

def placed (p : Placement) (requested : Option (List RoleRow)) (givenOwned : Bool)
    (account : Account) : Account :=
  let account := (requested.map account.withRoles).getD account
  let account := account.member p.memberships (p.primary.map (·.name))
  if givenOwned then account.owner p.owned else account

end Account

namespace Tables

/-! ### Users -/

def addAccount (t : Tables) (account : Account) : Tables :=
  { t with accounts := t.accounts ++ [account], fresh := t.fresh + 1 }

/-- `register_user`, with the role it is allowed to set. -/
def registerUser (S : Settings) (t : Tables) (email : Email) (password : String)
    (dept : Option String) (role : String) : Option Tables := do
  guard (S.allowedDomains.isEmpty || S.allowedDomains.contains email.domain)
  guard (MANAGED_PRIMARY_ROLES.contains role)
  guard (t.getByEmail email).isNone
  let member := (normalizeDepartmentName dept).bind fun name =>
    t.departments.find? fun row => row.name == name && row.companyDomain == email.domain
  some (t.addAccount
    { id := t.fresh
      email := email
      passwordHash := Auth.getPasswordHash password
      companyDomain := email.domain
      dept := dept
      role := role
      active := true
      roleIds := []
      departmentIds := (member.map (·.id)).toList
      ownerships := [] })

/-- `resolve_active_department` of a department that may be left out. -/
def departmentNamed (S : Settings) (t : Tables) (company : String) (name : Option String)
    (otherwise : Option Department) : Option (Option Department) :=
  match truthy name with
  | some name => t.resolveActiveDepartment S company (some name)
  | none => some otherwise

def newPlacement (S : Settings) (t : Tables) (input : ManagedUserCreate) : Option Placement := do
  let memberships ← t.resolveMembershipDepartments S input.email.domain input.departmentIds
    input.dept
  let primary ← t.departmentNamed S input.email.domain input.dept memberships.head?
  guard (primaryIsMembership primary memberships)
  let owned ← t.resolveOwnedDepartments input.email.domain input.ownedDepartmentIds
  guard (ownedAreMemberships memberships owned)
  some ⟨memberships, primary, owned⟩

/-- Roles named by their ids, each found, active and within the actor's authority. -/
def newRoles (S : Settings) (t : Tables) (actor : Account) (company : String) (ids : List Id) :
    Option (List RoleRow) := do
  let roles := t.requestedRoles company ids
  guard (roles.length == (distinct ids).length)
  guard (roles.all RoleRow.active)
  guard (!roles.isEmpty)
  guard (t.validateRoleAssignmentAuthority S actor roles)
  some roles

def requestedNewRoles (S : Settings) (t : Tables) (actor : Account) (company : String) :
    Option (List Id) → Option (Option (List RoleRow))
  | none => some none
  | some ids => (t.newRoles S actor company ids).map some

/-- `create_managed_user`.  What it asks again of the departments once the account is there has
the same answer. -/
def createManagedUser (S : Settings) (t : Tables) (actorId : Id) (input : ManagedUserCreate) :
    Option Tables := do
  let actor ← t.currentUser actorId
  guard (t.can actor .userManage .company)
  let password ← input.password
  guard (t.isGlobalUserManager actor || input.email.domain == actor.companyDomain)
  guard (!S.isResetOperator input.email)
  guard (t.isGlobalUserManager actor || !executive input.role)
  let placement ← t.newPlacement S input
  let requested ← t.requestedNewRoles S actor input.email.domain input.roleIds
  guard (!S.isLegacyOwnerRole input.role)
  guard (t.haveSingleOwner none placement.owned)
  let registered ← t.registerUser S input.email password (placement.primary.map (·.name)) input.role
  some (registered.bootstrapRbac.setAccount t.fresh
    (Account.placed placement requested input.ownedDepartmentIds.isSome))

/-- The memberships part of `update_managed_user`; what they are, where they were given. -/
def assignMemberships (S : Settings) (t : Tables) (input : ManagedUserUpdate) (account : Account) :
    Option (Account × Option (List Department)) :=
  match input.dept, input.departmentIds with
  | some dept, ids => do
    let memberships ← t.resolveMembershipDepartments S account.companyDomain ids dept
    let primary ← t.departmentNamed S account.companyDomain dept none
    guard (primaryIsMembership primary memberships)
    some (account.member memberships ((primary.or memberships.head?).map (·.name)),
      some memberships)
  | none, some ids => do
    let memberships ← t.resolveMembershipDepartments S account.companyDomain (some ids)
      account.dept
    some (account.member memberships (account.keptDept memberships), some memberships)
  | none, none => some (account, none)

def assignPrimaryRole (t : Tables) (actor : Account) (input : ManagedUserUpdate)
    (account : Account) : Option Account :=
  match input.role with
  | none => some account
  | some name => do
    guard (MANAGED_PRIMARY_ROLES.contains name)
    guard (t.isGlobalUserManager actor || !executive name)
    if input.roleIds.isNone then t.setPrimaryRole account name else some account

/-- A global manager may not take the global Admin role from himself. -/
def keepsOwnAdmin (t : Tables) (actor account : Account) (roles : List RoleRow) : Bool :=
  !(account.id == actor.id && t.isGlobalUserManager actor &&
    !roles.any fun row => row.name == "Admin" && row.companyDomain == none)

/-- The part of the roles named by their ids. -/
def assignRoles (S : Settings) (t : Tables) (actor : Account) (input : ManagedUserUpdate)
    (account : Account) : Option Account :=
  match input.roleIds with
  | none => some account
  | some ids => do
    let roles := t.requestedRoles account.companyDomain ids
    guard (roles.all RoleRow.active)
    guard (!roles.isEmpty)
    guard (t.validateRoleAssignmentAuthority S actor roles)
    guard (t.keepsOwnAdmin actor account roles)
    some (account.withRoles roles)

/-- The departments the ownership part is about. -/
def ownedAfter (t : Tables) (input : ManagedUserUpdate) (account : Account) :
    Option (List Department) :=
  match input.ownedDepartmentIds with
  | some ids => t.resolveOwnedDepartments account.companyDomain (some ids)
  | none => some (t.activelyOwned account)

end Tables

/-- What new memberships do to the ownerships. -/
def reconcile (given : Bool) (account : Account) (memberships : Option (List Department))
    (owned : List Department) : Option (Account × List Department) :=
  match memberships with
  | none => some (account, owned)
  | some memberships =>
    if given then if ownedAreMemberships memberships owned then some (account, owned) else none
    else
      let retained := owned.filter fun row => memberships.any fun member => member.id == row.id
      some (if retained.length = owned.length then account else account.owner retained, retained)

namespace Tables

/-- The ownership part, where the memberships may just have been given. -/
def assignOwnership (t : Tables) (input : ManagedUserUpdate) (account : Account)
    (memberships : Option (List Department)) : Option Account := do
  let owned ← t.ownedAfter input account
  let (account, owned) ← reconcile input.ownedDepartmentIds.isSome account memberships owned
  guard (t.haveSingleOwner (some account.id) owned)
  some (if input.ownedDepartmentIds.isSome then account.owner owned else account)

def assignEmail (S : Settings) (t : Tables) (actor : Account) (input : ManagedUserUpdate)
    (account : Account) : Option Account :=
  match input.email with
  | none => some account
  | some email => do
    guard (t.isGlobalUserManager actor || email.domain == actor.companyDomain)
    guard (email.domain == account.companyDomain)
    guard (!(S.isResetOperator email && !S.isResetOperator account.email))
    guard ((t.getByEmail email).all fun other => other.id == account.id)
    some { account with email := email, companyDomain := email.domain }

def assignActive (t : Tables) (actor : Account) (input : ManagedUserUpdate) (account : Account) :
    Option Account :=
  match input.active with
  | none => some account
  | some true => some (account.setActive true)
  | some false => do
    guard (account.id != actor.id)
    guard (t.activelyOwned account).isEmpty
    some (account.setActive false)

def updateManagedUser (S : Settings) (t : Tables) (actorId target : Id)
    (input : ManagedUserUpdate) : Option Tables := do
  let actor ← t.currentUser actorId
  guard (t.can actor .userManage .company)
  let account ← t.visibleTo actor target
  guard (t.isGlobalUserManager actor || account.companyDomain == actor.companyDomain)
  guard (!(account.id == actor.id && input.role.any fun name => name != "Admin"))
  let (account, memberships) ← t.assignMemberships S input account
  let account ← t.assignPrimaryRole actor input account
  let account ← t.assignRoles S actor input account
  let account ← t.assignOwnership input account memberships
  let account ← t.assignEmail S actor input account
  let account ← t.assignActive actor input account
  some (t.setAccount target fun _ => account.withPassword input.password)

/-- A CEO that is deactivated becomes Staff. -/
def demote (t : Tables) (account : Account) : Option Account :=
  if account.role == "CEO" || (t.rolesOf account).any fun row => row.name == "CEO" then
    t.setPrimaryRole account "Staff"
  else some account

def deactivateUser (t : Tables) (actorId target : Id) : Option Tables := do
  let actor ← t.currentUser actorId
  guard (t.can actor .userManage .company)
  let account ← t.visibleTo actor target
  guard (t.isGlobalUserManager actor || account.companyDomain == actor.companyDomain)
  guard (account.id != actor.id)
  guard (t.activelyOwned account).isEmpty
  let account ← t.demote (account.setActive false)
  some (t.setAccount target fun _ => account)

def replaceUserRoles (S : Settings) (t : Tables) (actorId target : Id) (ids : List Id) :
    Option Tables := do
  let actor ← t.currentUser actorId
  guard (t.can actor .userManage .company)
  let account ← t.visibleTo actor target
  let roles ← t.newRoles S actor account.companyDomain ids
  guard (t.keepsOwnAdmin actor account roles)
  some (t.setAccount target fun account => account.withRoles roles)

/-! ### Roles -/

def manageableRole (t : Tables) (actor : Account) (key : PermissionKey) (id : Id) :
    Option RoleRow :=
  (Rows.get RoleRow.id id t.roles).filter fun row =>
    t.can actor key .global || row.companyDomain == some actor.companyDomain

def setRole (t : Tables) (id : Id) (f : RoleRow → RoleRow) : Tables :=
  { t with roles := Rows.update (fun row => row.id == id) f t.roles }

/-- No other role of the company has the name, whatever its case. -/
def roleNameFree (S : Settings) (t : Tables) (company : Option String) (name : String)
    (except : Option Id) : Bool :=
  !t.roles.any fun row =>
    some row.id != except && row.companyDomain == company && S.sqlLower row.name == S.lower name

def createRole (S : Settings) (t : Tables) (actorId : Id) (name : String)
    (company : Option String) : Option Tables := do
  let actor ← t.currentUser actorId
  guard (t.can actor .roleManage .company)
  let company := match truthy company with
    | some domain => some (S.lower domain)
    | none => if t.can actor .roleManage .global then none else some actor.companyDomain
  guard (t.can actor .roleManage .global || company == some actor.companyDomain)
  let name := strip name
  guard (name != "" && !S.isLegacyOwnerRole name)
  guard (t.roleNameFree S company name none)
  some { t with
    roles := t.roles ++ [⟨t.fresh, name, company, true, false, []⟩], fresh := t.fresh + 1 }

def updateRole (S : Settings) (t : Tables) (actorId id : Id) (name : Option String)
    (active : Option Bool) : Option Tables := do
  let actor ← t.currentUser actorId
  guard (t.can actor .roleManage .company)
  let row ← t.manageableRole actor .roleManage id
  guard (!(row.system && name.any fun name => name != "" && name != row.name))
  guard (name.all fun name => strip name != "" && !S.isLegacyOwnerRole (strip name) &&
    t.roleNameFree S row.companyDomain (strip name) (some row.id))
  some (t.setRole id fun row =>
    { row with
      name := (name.map strip).getD row.name
      active := if row.system then row.active else active.getD row.active })

def replaceRolePermissions (t : Tables) (actorId id : Id) (permissions : List RolePermission) :
    Option Tables := do
  let actor ← t.currentUser actorId
  guard (t.can actor .permissionManage .company)
  let row ← t.manageableRole actor .permissionManage id
  guard (!row.system)
  guard (permissions.all fun p => p.scope.known)
  guard (decide (permissions.map RolePermission.key).Nodup)
  guard (!((row.companyDomain.isSome || !t.can actor .permissionManage .global) &&
    permissions.any fun p => p.scope == .global))
  guard (t.can actor .permissionManage .global ||
    permissions.all fun p => p.scope.rank ≤ t.effectiveRank actor p.key)
  some (t.setRole id fun row => { row with permissions := permissions })

/-! ### Departments -/

theorem normalized_canonical {value : Option String} {name : String}
    (h : normalizeDepartmentName value = some name) :
    normalizeDepartmentName (some name) = some name := by
  simp only [normalizeDepartmentName, Option.getD_some] at h ⊢
  split at h
  · cases h
  · rename_i hne
    obtain rfl := Option.some.inj h
    have hstrip : strip (strip (value.getD "")) = strip (value.getD "") := by
      rw [strip, strip, String.toList_ofList]
      exact congrArg String.ofList (Text.strip_strip (value.getD "").toList)
    rw [hstrip, if_neg hne]

/-- No other department of the company has the name, whatever its case. -/
def departmentNameFree (S : Settings) (t : Tables) (company name : String) (except : Option Id) :
    Bool :=
  !t.departments.any fun row =>
    some row.id != except && row.companyDomain == company && S.sqlLower row.name == S.lower name

def createDepartment (S : Settings) (t : Tables) (actorId : Id) (name : String) :
    Option Tables := do
  let actor ← t.currentUser actorId
  guard (t.can actor .userManage .company)
  match h : normalizeDepartmentName (some name) with
  | none => none
  | some canonical =>
    guard (t.departmentNameFree S actor.companyDomain canonical none)
    some { t with
      departments := t.departments ++
        [⟨t.fresh, actor.companyDomain, canonical, true, normalized_canonical h⟩]
      fresh := t.fresh + 1 }

def departmentForManagement (t : Tables) (actor : Account) (id : Id) : Option Department :=
  (t.department? id).filter fun row => row.companyDomain == actor.companyDomain

def setDepartment (t : Tables) (id : Id) (f : Department → Department) : Tables :=
  { t with departments := Rows.update (fun row => row.id == id) f t.departments }

/-- The rename of `update_department`, with the accounts that name the department. -/
def renameDepartment (S : Settings) (t : Tables) (row : Department) (name : String) :
    Option Tables :=
  match h : normalizeDepartmentName (some name) with
  | none => none
  | some canonical => do
    guard (t.departmentNameFree S row.companyDomain canonical (some row.id))
    some { t.setDepartment row.id fun row =>
        { row with name := canonical, canonical := normalized_canonical h } with
      accounts := Rows.update
        (fun account => account.companyDomain == row.companyDomain && account.dept == some row.name)
        (fun account => { account with dept := some canonical }) t.accounts }

def updateDepartment (S : Settings) (t : Tables) (actorId id : Id) (input : DepartmentUpdate) :
    Option Tables := do
  let actor ← t.currentUser actorId
  guard (t.can actor .userManage .company)
  let row ← t.departmentForManagement actor id
  guard (input.name.isSome || input.active.isSome || input.other)
  let t ← match input.name with
    | none => some t
    | some name => t.renameDepartment S row name
  some (t.setDepartment id fun row => { row with active := input.active.getD row.active })

/-- `delete_department`, of one that no account refers to. -/
def deleteDepartment (t : Tables) (actorId id : Id) : Option Tables := do
  let actor ← t.currentUser actorId
  guard (t.can actor .userManage .company)
  let row ← t.departmentForManagement actor id
  guard (!t.accounts.any fun account =>
    account.companyDomain == row.companyDomain && account.dept == some row.name ||
      account.departmentIds.contains row.id ||
        account.ownerships.any fun o => o.departmentId == row.id)
  some { t with departments := t.departments.filter fun other => other.id != id }

/-- `get_by_ids` of a company. -/
def getByIds (t : Tables) (ids : List Id) (company : String) : List Account :=
  t.accounts.filter fun account => ids.contains account.id && account.companyDomain == company

def replaceDepartmentMembers (t : Tables) (actorId id : Id) (userIds : List Id) :
    Option Tables := do
  let actor ← t.currentUser actorId
  guard (t.can actor .userManage .company)
  let row ← t.departmentForManagement actor id
  let ids := distinct userIds
  let users := t.getByIds ids row.companyDomain
  guard (users.length == ids.length)
  some { t with
    accounts := t.accounts.map fun account =>
      let others := account.departmentIds.filter fun other => other != id
      { account with
        departmentIds := if users.any (fun user => user.id == account.id) then
            (if account.departmentIds.contains id then account.departmentIds else others ++ [id])
          else others } }

/-! ### Invitations -/

def createInvitation (S : Settings) (t : Tables) (actorId : Id) (input : InvitationCreate)
    (now : Nat) : Option Tables := do
  let actor ← t.currentUser actorId
  guard (t.can actor .userManage .company)
  guard (input.email.domain == actor.companyDomain || t.isGlobalUserManager actor)
  guard (MANAGED_PRIMARY_ROLES.contains input.role)
  guard (!executive input.role || t.isGlobalUserManager actor)
  guard ((t.getByEmail input.email).all fun account => !account.active)
  guard (!S.isResetOperator input.email)
  guard ((t.departments.filter fun row => input.audienceIds.contains row.id &&
    row.companyDomain == actor.companyDomain && row.active).length ==
      (distinct input.audienceIds).length)
  some { t with
    invitations := t.invitations ++
      [⟨t.fresh, input.email, input.role, input.email.domain, input.audienceIds,
        now + 7 * 24 * 60 * 60, actor.id, false, false⟩]
    fresh := t.fresh + 1 }

def liveInvitation (t : Tables) (id : Id) (now : Nat) : Option Invitation :=
  (Rows.get Invitation.id id t.invitations).filter fun item =>
    !item.revoked && !item.used && now < item.expiresAt

def audience (t : Tables) (item : Invitation) (company : String) : List Department :=
  t.departments.filter fun row =>
    item.audienceIds.contains row.id && row.companyDomain == company

/-- The memberships an invitation gives, where it names audiences. -/
def withAudience (t : Tables) (item : Invitation) (account : Account) : Account :=
  if item.audienceIds.isEmpty then account
  else
    let memberships := t.audience item account.companyDomain
    { account with
      departmentIds := memberships.map (·.id)
      dept := (truthy account.dept).or ((memberships.head?.map (·.name)).or account.dept) }

/-- The same, as `entra_callback` writes it. -/
def withInvitedAudience (t : Tables) (item : Invitation) (account : Account) : Account :=
  if item.audienceIds.isEmpty then account
  else
    let memberships := t.audience item account.companyDomain
    { account with
      departmentIds := memberships.map (·.id)
      dept := (memberships.head?.map (·.name)).or account.dept }

def useInvitation (t : Tables) (id : Id) : Tables :=
  { t with
    invitations :=
      Rows.update (fun item => item.id == id) (fun item => { item with used := true })
        t.invitations }

def invitedAccount (t : Tables) (item : Invitation) (password : String) : Account where
  id := t.fresh
  email := item.email
  passwordHash := Auth.getPasswordHash password
  companyDomain := item.companyDomain
  dept := none
  role := item.role
  active := true
  roleIds := []
  departmentIds := []
  ownerships := []

/-- `accept_invitation`; the account it is for, beside the tables. -/
def accept (t : Tables) (id : Id) (password : String) (now : Nat) : Option (Id × Tables) := do
  let item ← t.liveInvitation id now
  match t.getByEmail item.email with
  | some account =>
    guard (!account.active)
    let reactivated := t.setAccount account.id fun account =>
      account.reinvited item password
    some (account.id, (reactivated.bootstrapRbac.setAccount account.id fun account =>
      t.withAudience item account).useInvitation id)
  | none =>
    let added := t.addAccount (t.invitedAccount item password)
    some (t.fresh, (added.bootstrapRbac.setAccount t.fresh fun account =>
      t.withAudience item account).useInvitation id)

/-- The account `entra_callback` makes from an invitation, where there is none for the address. -/
def provision (t : Tables) (id : Id) (secret : String) (now : Nat) : Option (Id × Tables) := do
  let item ← t.liveInvitation id now
  guard (t.getByEmail item.email).isNone
  let added := t.addAccount (t.invitedAccount item secret)
  some (t.fresh,
    (added.bootstrapRbac.setAccount t.fresh (t.withInvitedAudience item)).useInvitation id)

end Tables

inductive Request where
  | createManagedUser (actor : Id) (input : ManagedUserCreate)
  | updateManagedUser (actor target : Id) (input : ManagedUserUpdate)
  | deactivateUser (actor target : Id)
  | replaceUserRoles (actor target : Id) (roleIds : List Id)
  | createRole (actor : Id) (name : String) (company : Option String)
  | updateRole (actor id : Id) (name : Option String) (active : Option Bool)
  | replaceRolePermissions (actor id : Id) (permissions : List RolePermission)
  | createDepartment (actor : Id) (name : String)
  | updateDepartment (actor id : Id) (input : DepartmentUpdate)
  | deleteDepartment (actor id : Id)
  | replaceDepartmentMembers (actor id : Id) (userIds : List Id)
  | createInvitation (actor : Id) (input : InvitationCreate) (now : Nat)
  | acceptInvitation (id : Id) (password : String) (now : Nat)
  | provisionInvited (id : Id) (secret : String) (now : Nat)

def Tables.handle (S : Settings) (t : Tables) : Request → Option Tables
  | .createManagedUser actor input => t.createManagedUser S actor input
  | .updateManagedUser actor target input => t.updateManagedUser S actor target input
  | .deactivateUser actor target => t.deactivateUser actor target
  | .replaceUserRoles actor target roleIds => t.replaceUserRoles S actor target roleIds
  | .createRole actor name company => t.createRole S actor name company
  | .updateRole actor id name active => t.updateRole S actor id name active
  | .replaceRolePermissions actor id permissions => t.replaceRolePermissions actor id permissions
  | .createDepartment actor name => t.createDepartment S actor name
  | .updateDepartment actor id input => t.updateDepartment S actor id input
  | .deleteDepartment actor id => t.deleteDepartment actor id
  | .replaceDepartmentMembers actor id userIds => t.replaceDepartmentMembers actor id userIds
  | .createInvitation actor input now => t.createInvitation S actor input now
  | .acceptInvitation id password now => (t.accept id password now).map Prod.snd
  | .provisionInvited id secret now => (t.provision id secret now).map Prod.snd

def Requests (S : Settings) (t : Tables) (r : Request) (t' : Tables) : Prop :=
  t.handle S r = some t'

end QnscKb.Users
