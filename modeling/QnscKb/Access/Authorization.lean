import QnscKb.Access.Model
import QnscKb.Lib.Where

/-!
# Access — Authorization

`AuthorizationService` (`src/domain/rbac.py`): scopes, role assignments, department names and the
full-company reader.
-/

namespace QnscKb.Access
open QnscKb.Where

/-! ### Department names -/

def ownedDepartmentNames (u : User) : List String :=
  (u.departmentOwnerships.filter fun assignment =>
    assignment.active && assignment.department.active &&
      assignment.department.companyDomain == u.companyDomain).map (·.department.name)

def memberDepartmentNames (u : User) : List String :=
  (u.departments.filter fun department =>
    department.active && department.companyDomain == u.companyDomain).map (·.name)

def articleDepartmentNames (a : Article) : List String :=
  ((a.departments.filter (·.active)).map (·.name) ++
    (if a.dept = "" then [] else [a.dept])).filter fun name => name != ""

variable {u : User}

theorem ne_empty_of_mem_owned {n : String} (h : n ∈ ownedDepartmentNames u) : n ≠ "" := by
  obtain ⟨m, -, rfl⟩ := List.mem_map.mp h
  exact m.department.name_ne_empty

theorem ne_empty_of_mem_member {n : String} (h : n ∈ memberDepartmentNames u) : n ≠ "" := by
  obtain ⟨d, -, rfl⟩ := List.mem_map.mp h
  exact d.name_ne_empty

/-- The names a department relation carries, the active and the inactive ones. -/
def sharedNames (a : Article) : List String :=
  a.departments.map (·.name)

def activeSharedNames (a : Article) : List String :=
  (a.departments.filter (·.active)).map (·.name)

theorem meets_articleDepartmentNames {ns : List String} {a : Article} (h : ∀ n ∈ ns, n ≠ "") :
    meets ns (articleDepartmentNames a) = (ns.contains a.dept || meets ns (activeSharedNames a)) := by
  rw [Bool.eq_iff_iff, Bool.or_eq_true, meets_iff, meets_iff, List.contains_iff_mem]
  simp only [articleDepartmentNames, List.mem_filter, List.mem_append]
  constructor
  · rintro ⟨n, hn, hmem | hmem, -⟩
    · exact Or.inr ⟨n, hn, hmem⟩
    · split at hmem
      · cases hmem
      · rw [List.mem_singleton] at hmem
        exact Or.inl (hmem ▸ hn)
  · rintro (hn | ⟨n, hn, hmem⟩)
    · have hne := h _ hn
      exact ⟨a.dept, hn, Or.inr (by rw [if_neg hne]; exact List.mem_singleton.mpr rfl),
        by simpa using hne⟩
    · exact ⟨n, hn, Or.inl hmem, by simpa using h n hn⟩

/-- The departments `_scope_allows` compares with the owned ones. -/
def resourceDepartments (r : Resource) : List String :=
  r.departments.map (·.name) ++ r.dept.toList

def scopeAllows (granted requested : Scope) (u : User) (resource : Option Resource) : Bool :=
  if !granted.known || !requested.known then false
  else if granted = .global then true
  else
    match resource with
    | none =>
      [Scope.own, .department, .company].contains requested &&
        [requested, .company, .global].contains granted
    | some r =>
      if granted = .company then
        [Scope.own, .department, .company].contains requested &&
          r.companyDomain == u.companyDomain
      else if granted = .department then
        [Scope.own, .department].contains requested && r.companyDomain == u.companyDomain &&
          meets (resourceDepartments r) (ownedDepartmentNames u)
      else requested == .own && r.ownerId == some u.id

/-! ### Role assignments -/

def DEFAULT_ROLE_PERMISSIONS : List (String × List RolePermission) :=
  [("Admin", PermissionKey.sorted.map fun key => ⟨key, .global⟩),
   ("CEO",
    [⟨.articleRead, .company⟩, ⟨.articleCreate, .company⟩, ⟨.articleEdit, .company⟩,
      ⟨.articlePublish, .company⟩, ⟨.articleReview, .company⟩, ⟨.articleDelete, .company⟩,
      ⟨.userRead, .company⟩, ⟨.userManage, .company⟩, ⟨.connectorManage, .company⟩,
      ⟨.governanceRead, .company⟩, ⟨.aiAsk, .company⟩]),
   ("Reviewer",
    [⟨.articleRead, .company⟩, ⟨.articleReview, .company⟩, ⟨.governanceRead, .company⟩,
      ⟨.aiAsk, .company⟩]),
   ("Staff",
    [⟨.articleRead, .company⟩, ⟨.articleCreate, .own⟩, ⟨.articleEdit, .own⟩,
      ⟨.aiAsk, .company⟩])]

/-- `DEFAULT_ROLE_PERMISSIONS[name].get(key)`, nothing for a name outside the table. -/
def defaultScope (name : String) (key : PermissionKey) : Option Scope :=
  (DEFAULT_ROLE_PERMISSIONS.lookup name).bind fun permissions =>
    (permissions.find? fun p => p.key == key).map (·.scope)

def Role.applies (role : Role) (u : User) : Bool :=
  !(role.active == some false ||
    (role.companyDomain != none && role.companyDomain != some u.companyDomain))

def hasPermission (u : User) (key : PermissionKey) (resource : Option Resource)
    (requestedScope : Scope) : Bool :=
  match (if u.roles.isEmpty then defaultScope u.role key else none) with
  | some scope => scopeAllows scope requestedScope u resource
  | none =>
    u.roles.any fun role =>
      role.applies u &&
        role.permissions.any fun assignment =>
          assignment.key == key && scopeAllows assignment.scope requestedScope u resource

/-- Every scope the user holds for a key. -/
def grantedScopes (u : User) (key : PermissionKey) : List Scope :=
  match (if u.roles.isEmpty then defaultScope u.role key else none) with
  | some scope => [scope]
  | none =>
    (u.roles.filter fun role => role.applies u).flatMap fun role =>
      (role.permissions.filter fun p => p.key == key).map (·.scope)

def grants (u : User) (key : PermissionKey) (scope : Scope) : Bool :=
  (grantedScopes u key).contains scope

/-- The role loop and its compatibility fallback ask one question of the list `grantedScopes`. -/
theorem hasPermission_eq_any (u : User) (key : PermissionKey) (resource : Option Resource)
    (s : Scope) :
    hasPermission u key resource s =
      (grantedScopes u key).any fun g => scopeAllows g s u resource := by
  unfold hasPermission grantedScopes
  split
  · simp
  · rw [Bool.eq_iff_iff]
    simp only [List.any_eq_true, List.mem_flatMap, List.mem_filter, List.mem_map,
      Bool.and_eq_true, beq_iff_eq]
    constructor
    · rintro ⟨role, hr, ha, p, hp, hk, hs⟩
      exact ⟨p.scope, ⟨role, ⟨hr, ha⟩, p, ⟨hp, hk⟩, rfl⟩, hs⟩
    · rintro ⟨_, ⟨role, ⟨hr, ha⟩, p, ⟨hp, hk⟩, rfl⟩, hs⟩
      exact ⟨role, hr, ha, p, hp, hk, hs⟩

theorem any_grantedScopes (u : User) (key : PermissionKey) {f : Scope → Bool}
    (hf : ∀ t, f (.other t) = false) :
    (grantedScopes u key).any f =
      (grants u key .global && f .global || grants u key .company && f .company ||
        grants u key .department && f .department || grants u key .own && f .own) := by
  rw [Bool.eq_iff_iff]
  simp only [grants, List.any_eq_true, Bool.or_eq_true, Bool.and_eq_true, List.contains_iff_mem]
  constructor
  · rintro ⟨g, hg, h⟩
    cases g with
    | own => exact Or.inr ⟨hg, h⟩
    | department => exact Or.inl (Or.inr ⟨hg, h⟩)
    | company => exact Or.inl (Or.inl (Or.inr ⟨hg, h⟩))
    | global => exact Or.inl (Or.inl (Or.inl ⟨hg, h⟩))
    | other t => rw [hf] at h; cases h
  · rintro (((h | h) | h) | h) <;> exact ⟨_, h⟩

/-! ### What each check asks -/

@[simp] theorem hasPermission_global (u : User) (key : PermissionKey) (r : Option Resource) :
    hasPermission u key r .global = grants u key .global := by
  rw [hasPermission_eq_any, any_grantedScopes u key (fun _ => rfl)]
  cases r <;> simp [scopeAllows, Scope.known]

@[simp] theorem hasPermission_company (u : User) (key : PermissionKey) :
    hasPermission u key none .company = (grants u key .global || grants u key .company) := by
  rw [hasPermission_eq_any, any_grantedScopes u key (fun _ => rfl)]
  simp [scopeAllows, Scope.known]

@[simp] theorem hasPermission_department (u : User) (key : PermissionKey) :
    hasPermission u key none .department =
      (grants u key .global || grants u key .company || grants u key .department) := by
  rw [hasPermission_eq_any, any_grantedScopes u key (fun _ => rfl)]
  simp [scopeAllows, Scope.known]

/-- Without a resource a department grant does not answer for `own`: it takes that scope itself or a
wide one. -/
@[simp] theorem hasPermission_own (u : User) (key : PermissionKey) :
    hasPermission u key none .own =
      (grants u key .global || grants u key .company || grants u key .own) := by
  rw [hasPermission_eq_any, any_grantedScopes u key (fun _ => rfl)]
  simp [scopeAllows, Scope.known]

/-- The tuple of scopes the callers loop over. -/
def allScopes : List Scope := [.own, .department, .company, .global]

/-- `any(has_permission(user, key, resource, scope) for scope in (…))`. -/
def covers (u : User) (key : PermissionKey) (r : Resource) : Bool :=
  allScopes.any fun scope => hasPermission u key (some r) scope

/-- `any(has_permission(user, key, requested_scope=scope) for scope in (…))`. -/
def holdsAny (u : User) (key : PermissionKey) : Bool :=
  allScopes.any fun scope => hasPermission u key none scope

/-- A check with a resource asks this of the four scopes. -/
theorem covers_eq (u : User) (key : PermissionKey) (r : Resource) :
    covers u key r =
      (grants u key .global ||
        grants u key .company && r.companyDomain == u.companyDomain ||
        grants u key .department && (r.companyDomain == u.companyDomain &&
          meets (resourceDepartments r) (ownedDepartmentNames u)) ||
        grants u key .own && r.ownerId == some u.id) := by
  simp only [covers, allScopes, List.any_cons, List.any_nil, hasPermission_eq_any,
    any_grantedScopes u key (f := fun g => scopeAllows g _ u (some r)) (fun _ => rfl)]
  simp only [scopeAllows, Scope.known]
  generalize (r.companyDomain == u.companyDomain) = sameCompany
  generalize (r.ownerId == some u.id) = owner
  cases sameCompany <;> cases owner <;> cases grants u key .global <;>
    cases grants u key .company <;> cases grants u key .department <;>
    cases grants u key .own <;> simp

theorem holdsAny_eq (u : User) (key : PermissionKey) :
    holdsAny u key =
      (grants u key .global || grants u key .company || grants u key .department ||
        grants u key .own) := by
  simp only [holdsAny, allScopes, List.any_cons, List.any_nil, hasPermission_own,
    hasPermission_department, hasPermission_company, hasPermission_global]
  cases grants u key .global <;> cases grants u key .company <;>
    cases grants u key .department <;> cases grants u key .own <;> rfl

theorem holdsAny_of_covers {key : PermissionKey} {r : Resource} (h : covers u key r = true) :
    holdsAny u key = true := by
  rw [covers_eq] at h
  rw [holdsAny_eq]
  simp only [Bool.or_eq_true, Bool.and_eq_true] at h ⊢
  rcases h with ((h | h) | h) | h
  · exact Or.inl (Or.inl (Or.inl h))
  · exact Or.inl (Or.inl (Or.inr h.1))
  · exact Or.inl (Or.inr h.1)
  · exact Or.inr h.1

/-! ### Readers of a whole company -/

def privilegedNames : List String := ["Admin", "CEO"]

/-- The privileged identity `has_full_company_article_access` asks for. -/
def privilegedRole (u : User) : Bool :=
  if u.roles.isEmpty then privilegedNames.contains u.role
  else u.roles.any fun role => role.active != some false && privilegedNames.contains role.name &&
    (role.companyDomain == none || role.companyDomain == some u.companyDomain)

def hasFullCompanyArticleAccess (u : User) : Bool :=
  if hasPermission u .articleRead none .global then true
  else privilegedRole u && hasPermission u .articleRead none .company

def canAccessArticleDepartments (u : User) (a : Article) : Bool :=
  if hasPermission u .articleRead none .global || hasFullCompanyArticleAccess u then true
  else meets (memberDepartmentNames u) (articleDepartmentNames a)

theorem full_of_global (h : grants u .articleRead .global = true) :
    hasFullCompanyArticleAccess u = true := by
  simp [hasFullCompanyArticleAccess, h]

theorem full_eq (u : User) :
    hasFullCompanyArticleAccess u =
      (grants u .articleRead .global || privilegedRole u && grants u .articleRead .company) := by
  simp only [hasFullCompanyArticleAccess, hasPermission_global, hasPermission_company]
  cases grants u .articleRead .global <;> simp

theorem canAccessArticleDepartments_eq (u : User) (a : Article) :
    canAccessArticleDepartments u a =
      (hasFullCompanyArticleAccess u || (memberDepartmentNames u).contains a.dept ||
        meets (memberDepartmentNames u) (activeSharedNames a)) := by
  simp only [canAccessArticleDepartments, hasPermission_global,
    meets_articleDepartmentNames fun _ => ne_empty_of_mem_member]
  cases hg : grants u .articleRead .global with
  | true => simp [full_of_global hg]
  | false => cases hasFullCompanyArticleAccess u <;> simp

end QnscKb.Access
