import QnscKb.Review.Workflow

/-!
# Sync — ProviderAcl

The access list a provider reports for a document, laid over the audience its article has inside
(`_provider_acl_intersection`, `_apply_mapped_groups`, `src/domain/cloud_sync.py`).  The resolved
principals are those `_save_permissions` leaves in the document's metadata.

The snapshot of the internal audience is put into the dictionary that the session's object holds and
a walk has committed before.  A flush compares that value with itself, so the row gets the snapshot
only where the column is assigned anew: where an ingest failure is cleared, in
`reconcile_connector_acl_mappings`, or with the object's next write (`Synced`).

A set of ids is a list, and what the code iterates over is deduplicated.
-/

namespace QnscKb.Sync
open QnscKb.Access QnscKb.Where QnscKb.Review

/-- `internal_acl_snapshot`. -/
structure AclSnapshot where
  visibility : Visibility
  departmentIds : List Id
  allowUserIds : List Id
  deriving DecidableEq

/-- The keys of the metadata `_save_permissions` writes and the intersection reads. -/
structure SourceAcl where
  mappedDepartmentIds : List Id
  mappedSourceUserIds : List Id
  unmappedGroupIds : List String
  unmappedSourceUserIds : List String
  unmappedPrincipalIds : List String
  providerAclPresent : Bool
  sharepointAclPresent : Bool
  deriving DecidableEq

/-- `document.metadata_json`. -/
structure Metadata where
  internalAclSnapshot : Option AclSnapshot
  acl : SourceAcl
  deriving DecidableEq

/-- The tables the members of a mapped group and its departments are read from. -/
structure Directory where
  accounts : List Account
  departments : List Department

/-! ### `_provider_acl_intersection` -/

structure AclIntersection where
  groupIds : List Id
  directUserIds : List Id
  internalUsersAllowedBySource : List Id
  visibility : Visibility
  deriving DecidableEq

/-- `a & b`. -/
def both (a b : List Id) : List Id := a.filter fun id => b.contains id

def providerAclIntersection (internalVisibility : Visibility)
    (internalGroupIds internalUserIds sourceGroupIds sourceUserIds sourceGroupMemberIds : List Id)
    (unmappedPrincipals aclPresent : Bool) : AclIntersection :=
  let effectiveGroupIds :=
    if internalVisibility == .users then []
    else if internalVisibility == .publicContent || internalGroupIds.isEmpty then sourceGroupIds
    else both sourceGroupIds internalGroupIds
  let effectiveDirectUserIds :=
    if internalVisibility == .publicContent then sourceUserIds
    else both sourceUserIds internalUserIds
  let sourceRestricts :=
    aclPresent || (!sourceGroupIds.isEmpty || !sourceUserIds.isEmpty || unmappedPrincipals)
  let visibility :=
    if !sourceRestricts then internalVisibility
    else if effectiveGroupIds.isEmpty && effectiveDirectUserIds.isEmpty then .users
    else if !effectiveDirectUserIds.isEmpty && effectiveGroupIds.isEmpty then .users
    else if internalVisibility == .users then .users
    else .department
  let internalUsersAllowedBySource :=
    if sourceRestricts then both internalUserIds (sourceUserIds ++ sourceGroupMemberIds)
    else internalUserIds
  { groupIds := effectiveGroupIds
    directUserIds := effectiveDirectUserIds
    internalUsersAllowedBySource := internalUsersAllowedBySource
    visibility := visibility }

section Intersection

variable (iv : Visibility) (internalGroups internalUsers groups users members : List Id)
  (unmapped present : Bool)

theorem contains_both (a b : List Id) (id : Id) :
    (both a b).contains id = (a.contains id && b.contains id) := by
  simp [both]

theorem groupIds_contains (id : Id) :
    (providerAclIntersection iv internalGroups internalUsers groups users members unmapped
        present).groupIds.contains id =
      (groups.contains id && (iv != .users &&
        (iv == .publicContent || internalGroups.isEmpty || internalGroups.contains id))) := by
  unfold providerAclIntersection
  cases iv with
  | users => simp
  | publicContent => simp
  | department =>
    cases internalGroups with
    | nil => simp
    | cons d ds =>
      rw [if_neg (by decide), if_neg (by simp [show (Visibility.department ==
        Visibility.publicContent) = false from rfl]), contains_both]
      rfl

theorem directUserIds_contains (id : Id) :
    (providerAclIntersection iv internalGroups internalUsers groups users members unmapped
        present).directUserIds.contains id =
      (users.contains id && (iv == .publicContent || internalUsers.contains id)) := by
  unfold providerAclIntersection
  cases iv with
  | users => exact contains_both users internalUsers id
  | publicContent => simp
  | department => exact contains_both users internalUsers id

theorem visibility_of_group
    (h : (providerAclIntersection iv internalGroups internalUsers groups users members unmapped
      present).groupIds.isEmpty = false) :
    (providerAclIntersection iv internalGroups internalUsers groups users members unmapped
      present).visibility = .department := by
  have hgroups : groups.isEmpty = false := by
    cases groups with
    | nil => exact absurd h (by unfold providerAclIntersection; cases iv <;> simp [both])
    | cons g gs => rfl
  have hiv : (iv == .users) = false := by
    cases iv with
    | users => cases h
    | publicContent => rfl
    | department => rfl
  unfold providerAclIntersection at h ⊢
  dsimp only at h ⊢
  rw [h, hgroups, hiv]
  simp

theorem visibility_of_direct
    (h : (providerAclIntersection iv internalGroups internalUsers groups users members unmapped
      present).groupIds.isEmpty = true)
    (hd : (providerAclIntersection iv internalGroups internalUsers groups users members unmapped
      present).directUserIds.isEmpty = false) :
    (providerAclIntersection iv internalGroups internalUsers groups users members unmapped
      present).visibility = .users := by
  have husers : users.isEmpty = false := by
    cases users with
    | nil => exact absurd hd (by unfold providerAclIntersection; cases iv <;> simp [both])
    | cons g gs => rfl
  unfold providerAclIntersection at h hd ⊢
  dsimp only at h hd ⊢
  rw [h, hd, husers]
  simp

theorem not_allowedBySource {id : Id} (hlisted : internalUsers.contains id = true) :
    (providerAclIntersection iv internalGroups internalUsers groups users members unmapped
        present).internalUsersAllowedBySource.contains id = false ↔
      (present || (!groups.isEmpty || !users.isEmpty || unmapped)) = true ∧
        users.contains id = false ∧ members.contains id = false := by
  unfold providerAclIntersection
  dsimp only
  cases hr : present || (!groups.isEmpty || !users.isEmpty || unmapped) with
  | false => simpa using hlisted
  | true =>
    rw [if_pos rfl, contains_both, hlisted]
    simp

end Intersection

/-! ### `_apply_mapped_groups` -/

def permissionSource (system : Option String) : String :=
  match system with
  | some s => if s = "" then "sharepoint" else s
  | none => "sharepoint"

/-- `item.source not in SOURCE_ACL_PROVIDERS`. -/
def internalRow (row : ArticleUserPermission) : Bool :=
  !row.source.any fun source => SOURCE_ACL_PROVIDERS.contains source

/-- What the article admits by itself. -/
def snapshotOf (article : Article) : AclSnapshot where
  visibility := article.visibility
  departmentIds := article.departments.map (·.id)
  allowUserIds :=
    (article.userPermissions.filter fun item => item.effect == .allow && internalRow item).map
      (·.userId)

/-- The active members of the company in the mapped departments. -/
def sourceGroupMemberIds (dir : Directory) (companyDomain : String) (sourceGroupIds : List Id) :
    List Id :=
  if sourceGroupIds.isEmpty then []
  else
    (dir.accounts.filter fun user =>
      user.departments.any (fun department => sourceGroupIds.contains department.id) &&
        user.companyDomain == companyDomain && user.active).map (·.id)

def effectiveDepartments (dir : Directory) (companyDomain : String) (ids : List Id) :
    List Department :=
  if ids.isEmpty then []
  else dir.departments.filter fun department =>
    ids.contains department.id && department.companyDomain == companyDomain

/-- The snapshot in the metadata, taken now if there is none. -/
def Metadata.internal (metadata : Metadata) (article : Article) : AclSnapshot :=
  metadata.internalAclSnapshot.getD (snapshotOf article)

/-- Some principal of the list stands for nobody here. -/
def SourceAcl.unmapped (acl : SourceAcl) : Bool :=
  !acl.unmappedGroupIds.isEmpty || !acl.unmappedSourceUserIds.isEmpty ||
    !acl.unmappedPrincipalIds.isEmpty

def intersectionWith (dir : Directory) (internal : AclSnapshot) (acl : SourceAcl)
    (companyDomain : String) : AclIntersection :=
  providerAclIntersection internal.visibility internal.departmentIds internal.allowUserIds
    acl.mappedDepartmentIds acl.mappedSourceUserIds
    (sourceGroupMemberIds dir companyDomain acl.mappedDepartmentIds) acl.unmapped
    (acl.providerAclPresent || acl.sharepointAclPresent)

def sourceRow (permissionSource : String) (effect : Effect) (userId : Id) :
    ArticleUserPermission where
  userId := userId
  effect := effect
  source := some permissionSource

/-- The rows after the sync: those of other sources, the direct users, and the denials. -/
def rewrittenRows (permissionSource : String) (internal : AclSnapshot) (acl : AclIntersection)
    (rows : List ArticleUserPermission) : List ArticleUserPermission :=
  (rows.filter fun row => row.source != some permissionSource) ++
    acl.directUserIds.dedup.map (sourceRow permissionSource .allow) ++
    (internal.allowUserIds.dedup.filter fun id =>
      !acl.internalUsersAllowedBySource.contains id).map (sourceRow permissionSource .deny)

def rewrite (dir : Directory) (permissionSource : String) (internal : AclSnapshot)
    (source : SourceAcl) (article : Article) : Article :=
  let acl := intersectionWith dir internal source article.companyDomain
  { article with
    departments := effectiveDepartments dir article.companyDomain acl.groupIds
    userPermissions := rewrittenRows permissionSource internal acl article.userPermissions
    visibility := acl.visibility }

/-- `_apply_mapped_groups`, on the dictionary of the session's object and on the article the document
points to, if there is one. -/
def applyMappedGroups (dir : Directory) (system : Option String) (metadata : Metadata) :
    Option Article → Metadata × Option Article
  | none => (metadata, none)
  | some article =>
    let internal := metadata.internal article
    ({ metadata with internalAclSnapshot := some internal },
      some (rewrite dir (permissionSource system) internal metadata.acl article))

/-! ### One list after another -/

/-- `next_metadata`: the new list among the keys that were there. -/
def Metadata.save (metadata : Metadata) (acl : SourceAcl) : Metadata :=
  { metadata with acl := acl }

/-- A document: its row, the dictionary that the session's object holds, and its article. -/
structure Synced where
  row : Metadata
  loaded : Metadata
  article : Option Article

/-- Who applies a list: a walk, which may have an ingest failure to clear, or
`reconcile_connector_acl_mappings`. -/
inductive AclPass
  | walk (clears : Bool)
  | reconcile
  deriving DecidableEq

/-- A list of the provider, with the directory of its time.  The object may be read again before,
and other keys of the metadata may change. -/
structure AclReport where
  dir : Directory
  acl : SourceAcl
  pass : AclPass
  reloaded : Bool
  others : Bool

/-- The dictionary the object holds when the list arrives. -/
def AclReport.held (r : AclReport) (s : Synced) : Metadata := if r.reloaded then s.row else s.loaded

/-- A flush writes what differs from the value the object had. -/
def AclReport.flushed (r : AclReport) (s : Synced) (assigned : Metadata) : Metadata :=
  if assigned = r.held s ∧ r.others = false then s.row else assigned

def applyReport (system : Option String) (r : AclReport) (s : Synced) : Synced :=
  let next := (r.held s).save r.acl
  let after := applyMappedGroups r.dir system next s.article
  { row := match r.pass with
      | .walk false => r.flushed s next
      | .walk true => after.1
      | .reconcile => r.flushed s after.1
    loaded := after.1
    article := after.2 }

def applyReports (system : Option String) (s : Synced) (history : List AclReport) : Synced :=
  history.foldl (fun s r => applyReport system r s) s

theorem rewrittenRows_filter (p : String) (i j : AclSnapshot) (x y : AclIntersection)
    (rows : List ArticleUserPermission) :
    rewrittenRows p j y (rewrittenRows p i x rows) = rewrittenRows p j y rows := by
  have hstamped : ∀ (e : Effect) (ids : List Id),
      (ids.map (sourceRow p e)).filter (fun row => row.source != some p) = [] := by
    intro e ids
    refine List.filter_eq_nil_iff.mpr fun row hrow => ?_
    obtain ⟨id, -, rfl⟩ := List.mem_map.mp hrow
    simp [sourceRow]
  unfold rewrittenRows
  rw [List.filter_append, List.filter_append, hstamped, hstamped, List.append_nil, List.append_nil,
    List.filter_filter]
  simp only [Bool.and_self]

/-- **What one list leaves of the article** is overwritten by the next one. -/
theorem rewrite_rewrite (d₁ d₂ : Directory) (p : String) (i j : AclSnapshot)
    (acl₁ acl₂ : SourceAcl) (a : Article) :
    rewrite d₂ p j acl₂ (rewrite d₁ p i acl₁ a) = rewrite d₂ p j acl₂ a := by
  simp only [rewrite, rewrittenRows_filter]

end QnscKb.Sync
