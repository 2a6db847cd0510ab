import QnscKb.Lib.Text

/-!
# Access — Model

The rows visibility is decided from (`src/models/user.py`, `rbac.py`, `article.py`), with the
columns the predicates read.  An identifier is a number, ordered as the text of a UUID is; columns
the code compares with a closed set of texts are inductive types.
-/

namespace QnscKb.Access

/-- A primary key (`uuid.UUID`). -/
abbrev Id := Nat

def strip (s : String) : String :=
  String.ofList (((s.toList.dropWhile Text.isSpace).reverse.dropWhile Text.isSpace).reverse)

def normalizeDepartmentName (name : Option String) : Option String :=
  let value := strip (name.getD "")
  if value = "" then none else some value

/-! ### Permissions and roles -/

/-- `PERMISSION_CATALOG`'s keys. -/
inductive PermissionKey
  | articleRead | articleCreate | articleEdit | articlePublish | articleDelete | articleReview
  | userRead | userManage | roleManage | permissionManage | connectorManage | aiAsk
  | governanceRead
  deriving DecidableEq, Repr

/-- The catalog in the order of its texts, the order `sorted` gives its keys. -/
def PermissionKey.sorted : List PermissionKey :=
  [.aiAsk, .articleCreate, .articleDelete, .articleEdit, .articlePublish, .articleRead,
    .articleReview, .connectorManage, .governanceRead, .permissionManage, .roleManage,
    .userManage, .userRead]

theorem PermissionKey.mem_sorted (k : PermissionKey) : k ∈ PermissionKey.sorted := by
  cases k <;> decide

/-- `RolePermission.scope`; `other` is a stored text outside `SCOPES`. -/
inductive Scope
  | own | department | company | global
  | other (text : String)
  deriving DecidableEq, Repr

def Scope.known : Scope → Bool
  | .other _ => false
  | _ => true

structure RolePermission where
  key : PermissionKey
  scope : Scope
  deriving DecidableEq, Repr

/-- A role row with its permissions.  `active` is `none` on an object that was never flushed. -/
structure Role where
  id : Id
  name : String
  companyDomain : Option String
  active : Option Bool
  permissions : List RolePermission
  deriving DecidableEq, Repr

/-! ### Departments and users -/

/-- A department row.  Every writer passes its name through `normalize_department_name`. -/
structure Department where
  id : Id
  companyDomain : String
  name : String
  active : Bool
  canonical : normalizeDepartmentName (some name) = some name
  deriving DecidableEq

theorem Department.name_ne_empty (d : Department) : d.name ≠ "" := by
  intro h
  have hc := d.canonical
  rw [h] at hc
  exact absurd hc (by decide)

theorem Department.strip_name (d : Department) : strip d.name = d.name := by
  have hc := d.canonical
  simp only [normalizeDepartmentName] at hc
  split at hc
  · cases hc
  · exact Option.some.inj hc

/-- Explicit ownership of a department by the user that holds the row. -/
structure DepartmentManager where
  department : Department
  active : Bool
  deriving DecidableEq

/-- A user with the relations `lazy="selectin"` and the repository load. -/
structure User where
  id : Id
  companyDomain : String
  dept : Option String
  role : String
  departments : List Department
  departmentOwnerships : List DepartmentManager
  roles : List Role
  deriving DecidableEq

/-! ### Articles -/

inductive ArticleStatus
  | draft | pendingReview | published | archived | deleted
  deriving DecidableEq, Repr

inductive LifecycleStatus
  | active | inactive
  deriving DecidableEq, Repr

inductive IndexStatus
  | pending | processing | ready | failed
  deriving DecidableEq, Repr

/-- `publicContent` is the stored text `public`. -/
inductive Sensitivity
  | publicContent | internal | confidential | restricted
  deriving DecidableEq, Repr

/-- `publicContent` is the stored text `public`. -/
inductive Visibility
  | publicContent | department | users
  deriving DecidableEq, Repr

/-- `ck_article_user_permission_effect`. -/
inductive Effect
  | allow | deny
  deriving DecidableEq, Repr

/-- `source` is `none` for an internal override and the provider for a mirrored one. -/
structure ArticleUserPermission where
  userId : Id
  effect : Effect
  source : Option String
  deriving DecidableEq, Repr

structure DocumentSource where
  sourceSystem : String
  deriving DecidableEq, Repr

/-- An article with the relations its readers load. -/
structure Article where
  id : Id
  dept : String
  companyDomain : String
  sensitivity : Sensitivity
  visibility : Visibility
  ownerId : Option Id
  status : ArticleStatus
  lifecycleStatus : LifecycleStatus
  indexStatus : IndexStatus
  departments : List Department
  userPermissions : List ArticleUserPermission
  sources : List DocumentSource
  deriving DecidableEq

/-- `REMOTE_PROVIDERS`, sorted. -/
def SOURCE_ACL_PROVIDERS : List String := ["google_drive", "onedrive", "sharepoint"]

/-- What `has_permission` reads of a resource: an article, a draft, or a transient article. -/
structure Resource where
  companyDomain : String
  departments : List Department
  dept : Option String
  ownerId : Option Id
  deriving DecidableEq

def Article.resource (a : Article) : Resource where
  companyDomain := a.companyDomain
  departments := a.departments
  dept := some a.dept
  ownerId := a.ownerId

end QnscKb.Access
