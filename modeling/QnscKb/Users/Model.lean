import QnscKb.Access.Fingerprint
import QnscKb.Auth.Model

/-!
# Users — Model

The directory of a deployment, accounts, departments, roles and invitations (`src/models/user.py`,
`src/models/rbac.py`), and what the endpoints of `src/api/routers/auth.py` resolve and check against
it.  A request is refused with `none`; an address is in the form `@validates("email")` stores.
-/

namespace QnscKb.Users
open Access

/-! ### Rows -/

structure Email where
  mailbox : String
  domain : String
  deriving DecidableEq, Repr

/-- A row of `department_managers`, held by its user. -/
structure Ownership where
  departmentId : Id
  active : Bool
  deriving DecidableEq, Repr

structure Account where
  id : Id
  email : Email
  passwordHash : Auth.PasswordHash
  companyDomain : String
  dept : Option String
  role : String
  active : Bool
  roleIds : List Id
  /-- `user_departments`. -/
  departmentIds : List Id
  ownerships : List Ownership
  deriving DecidableEq, Repr

structure RoleRow where
  id : Id
  name : String
  companyDomain : Option String
  active : Bool
  system : Bool
  permissions : List RolePermission
  deriving DecidableEq, Repr

def RoleRow.toRole (row : RoleRow) : Role where
  id := row.id
  name := row.name
  companyDomain := row.companyDomain
  active := some row.active
  permissions := row.permissions

structure Invitation where
  id : Id
  email : Email
  role : String
  companyDomain : String
  /-- `audience_ids`, where `NULL` and the empty list are read alike. -/
  audienceIds : List Id
  expiresAt : Nat
  invitedBy : Id
  used : Bool
  revoked : Bool
  deriving DecidableEq, Repr

/-- The tables, with the supply of primary keys. -/
structure Tables where
  accounts : List Account
  departments : List Department
  roles : List RoleRow
  invitations : List Invitation
  fresh : Id
  deriving DecidableEq

structure Settings where
  lower : String → String
  /-- `lower` of the database. -/
  sqlLower : String → String
  casefold : String → String
  isResetOperator : Email → Bool
  allowedDomains : List String

def MANAGED_PRIMARY_ROLES : List String := ["Admin", "CEO", "Reviewer", "Staff"]

def LEGACY_DEPARTMENT_OWNER_ROLE : String := "Department Owner"

def Settings.isLegacyOwnerRole (S : Settings) (name : String) : Bool :=
  S.casefold name == S.casefold LEGACY_DEPARTMENT_OWNER_ROLE

/-- `if value`, of a text that may be missing. -/
def truthy (value : Option String) : Option String := value.filter fun text => text != ""

/-- `list(dict.fromkeys(ids))`. -/
def distinct (ids : List Id) : List Id := ids.reverse.dedup.reverse

/-! ### Reads -/

namespace Tables

/-- The rows of `user.roles`. -/
def rolesOf (t : Tables) (account : Account) : List RoleRow :=
  t.roles.filter fun row => account.roleIds.contains row.id

def department? (t : Tables) (id : Id) : Option Department :=
  Rows.get Department.id id t.departments

/-- The user the authorization service is given. -/
def asUser (t : Tables) (account : Account) : User where
  id := account.id
  companyDomain := account.companyDomain
  dept := account.dept
  role := account.role
  departments := t.departments.filter fun row => account.departmentIds.contains row.id
  departmentOwnerships := account.ownerships.filterMap fun o =>
    (t.department? o.departmentId).map fun row => ⟨row, o.active⟩
  roles := (t.rolesOf account).map RoleRow.toRole

/-- `get_current_user`. -/
def currentUser (t : Tables) (id : Id) : Option Account :=
  (Rows.get Account.id id t.accounts).filter Account.active

/-- `has_permission` without a resource. -/
def can (t : Tables) (account : Account) (key : PermissionKey) (scope : Scope) : Bool :=
  hasPermission (t.asUser account) key none scope

def isGlobalUserManager (t : Tables) (account : Account) : Bool :=
  t.can account .userManage .global

/-- `UserRepository.get_by_id` with a viewer. -/
def visibleTo (t : Tables) (viewer : Account) (id : Id) : Option Account :=
  (Rows.get Account.id id t.accounts).filter fun account =>
    t.can viewer .userRead .global || t.can viewer .userManage .global ||
      (t.can viewer .userRead .company || t.can viewer .userManage .company) &&
        account.companyDomain == viewer.companyDomain

def getByEmail (t : Tables) (email : Email) : Option Account :=
  Rows.get Account.email email t.accounts

def setAccount (t : Tables) (id : Id) (f : Account → Account) : Tables :=
  { t with accounts := Rows.update (fun account => account.id == id) f t.accounts }

/-! ### Departments of a request -/

/-- `resolve_active_department`, not required. -/
def resolveActiveDepartment (S : Settings) (t : Tables) (company : String) (name : Option String) :
    Option (Option Department) :=
  match normalizeDepartmentName name with
  | none => some none
  | some canonical =>
    (t.departments.find? fun row =>
      row.companyDomain == company && row.active && S.sqlLower row.name == S.lower canonical).map
        some

/-- The active departments of a company among the ids; a refusal unless all are. -/
def activeDepartments (t : Tables) (company : String) (ids : List Id) : Option (List Department) :=
  let found := t.departments.filter fun row =>
    ids.contains row.id && row.companyDomain == company && row.active
  if found.length = ids.length then some found else none

def resolveOwnedDepartments (t : Tables) (company : String) (ids : Option (List Id)) :
    Option (List Department) :=
  match ids.getD [] with
  | [] => some []
  | ids => t.activeDepartments company (distinct ids)

def resolveMembershipDepartments (S : Settings) (t : Tables) (company : String)
    (ids : Option (List Id)) (primaryName : Option String) : Option (List Department) :=
  match ids with
  | none => (t.resolveActiveDepartment S company primaryName).map Option.toList
  | some [] => some []
  | some ids =>
    (t.activeDepartments company (distinct ids)).map fun found =>
      (distinct ids).filterMap fun id => Rows.get Department.id id found

/-- No conflict for `_ensure_departments_have_single_owner`. -/
def haveSingleOwner (t : Tables) (userId : Option Id) (departments : List Department) : Bool :=
  !t.accounts.any fun account =>
    some account.id != userId && account.active &&
      account.ownerships.any fun o =>
        o.active && departments.any fun row => row.id == o.departmentId

def activelyOwned (t : Tables) (account : Account) : List Department :=
  account.ownerships.filterMap fun o =>
    (t.department? o.departmentId).filter fun row => o.active && row.active

end Tables

def ownedAreMemberships (memberships owned : List Department) : Bool :=
  owned.all fun row => memberships.any fun member => member.id == row.id

/-- The primary department is one of the memberships, where there are both. -/
def primaryIsMembership (primary : Option Department) (memberships : List Department) : Bool :=
  primary.all fun row => memberships.isEmpty || memberships.any fun member => member.id == row.id

def applyDepartmentOwnership (ownerships : List Ownership) (departments : List Department) :
    List Ownership :=
  (ownerships.map fun o =>
    { o with active := departments.any fun row => row.id == o.departmentId }) ++
  ((departments.filter fun row => !ownerships.any fun o => o.departmentId == row.id).map fun row =>
    ⟨row.id, true⟩)

/-! ### Roles of a request -/

/-- `{"Admin", "CEO"}`. -/
def executive (name : String) : Bool := privilegedNames.contains name

def primaryName (roles : List RoleRow) : String :=
  ((roles.find? fun row => MANAGED_PRIMARY_ROLES.contains row.name).or roles.head?).elim ""
    RoleRow.name

def Account.withRoles (account : Account) (roles : List RoleRow) : Account :=
  { account with roleIds := roles.map RoleRow.id, role := primaryName roles }

namespace Tables

/-- The roles of the ids that are global or of the company. -/
def requestedRoles (t : Tables) (company : String) (ids : List Id) : List RoleRow :=
  t.roles.filter fun row =>
    ids.contains row.id && (row.companyDomain == some company || row.companyDomain == none)

/-- `get_effective_permissions`, by key. -/
def effectiveRank (t : Tables) (account : Account) (key : PermissionKey) : Nat :=
  storedRank (effectiveScope (t.asUser account) key)

def validateRoleAssignmentAuthority (S : Settings) (t : Tables) (actor : Account)
    (roles : List RoleRow) : Bool :=
  !(roles.any fun row => S.isLegacyOwnerRole row.name) &&
    (t.isGlobalUserManager actor ||
      !(roles.any fun row => row.companyDomain == none || executive row.name) &&
        roles.all fun row => row.permissions.all fun p =>
          p.scope.rank ≤ t.effectiveRank actor p.key)

def systemRole (t : Tables) (name : String) (company : Option String) : Option RoleRow :=
  t.roles.find? fun row => row.name == name && row.companyDomain == company

def setPrimaryRole (t : Tables) (account : Account) (name : String) : Option Account :=
  (t.systemRole name (some account.companyDomain)).map fun row =>
    { account with roleIds := [row.id], role := name }

end Tables

/-! ### `bootstrap_rbac` -/

/-- The permissions of `DEFAULT_ROLE_PERMISSIONS` under a name. -/
def defaultPermissions (name : String) : List RolePermission :=
  (DEFAULT_ROLE_PERMISSIONS.lookup name).getD []

def RoleRow.completed (row : RoleRow) (name : String) : RoleRow :=
  { row with
    permissions := row.permissions ++ (defaultPermissions name).filter fun p =>
      !row.permissions.any fun held => held.key == p.key }

namespace Tables

def ensureRole (t : Tables) (name : String) (company : Option String) : Tables :=
  match t.systemRole name company with
  | some row =>
    { t with
      roles := Rows.update (fun other => other.id == row.id) (RoleRow.completed · name) t.roles }
  | none =>
    { t with
      roles := t.roles ++ [RoleRow.completed ⟨t.fresh, name, company, true, true, []⟩ name]
      fresh := t.fresh + 1 }

def defaultName (role : String) : String :=
  if (DEFAULT_ROLE_PERMISSIONS.lookup role).isSome then role else "Staff"

def defaultRole (t : Tables) (account : Account) : Option RoleRow :=
  t.systemRole (defaultName account.role) (some account.companyDomain)

def giveRole (t : Tables) (id : Id) : Option RoleRow → Tables
  | some row => t.setAccount id fun account => { account with roleIds := [row.id] }
  | none => t

def backfill (t : Tables) (account : Account) : Tables :=
  if (t.rolesOf account).isEmpty then
    let ensured := t.ensureRole (defaultName account.role) (some account.companyDomain)
    ensured.giveRole account.id (ensured.defaultRole account)
  else t

def domains (t : Tables) : List String :=
  (t.accounts.map Account.companyDomain).dedup.filter fun domain => domain != ""

/-- The roles the bootstrap makes sure of. -/
def wantedRoles (t : Tables) : List (String × Option String) :=
  ("Admin", none) :: t.domains.flatMap fun domain =>
    DEFAULT_ROLE_PERMISSIONS.map fun entry => (entry.1, some domain)

def ensureRoles (t : Tables) (wanted : List (String × Option String)) : Tables :=
  wanted.foldl (fun t wanted => t.ensureRole wanted.1 wanted.2) t

def bootstrapRbac (t : Tables) : Tables :=
  t.accounts.foldl backfill (t.ensureRoles t.wantedRoles)

end Tables

end QnscKb.Users
