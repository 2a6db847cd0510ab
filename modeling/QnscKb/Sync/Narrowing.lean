import QnscKb.Access.Agreement
import QnscKb.Sync.ProviderAcl

/-!
# Sync — Narrowing

After a provider's list has been laid over a snapshot, a user without a company-wide grant should
see the article exactly if its own policy admits them (`InternalAudience`) and the provider does
(`Granted`), both read as conjunctions (`internalAudience_iff`, `view_rewritten_iff`).
-/

namespace QnscKb.Sync
open QnscKb.Access QnscKb.Where QnscKb.Review

/-! ### The two sides -/

/-- An article of the connector's provider.  Its rows are those people set and those this
provider's earlier lists left. -/
structure Imported (system : Option String) where
  article : Article
  remote : permissionSource system ∈ SOURCE_ACL_PROVIDERS
  governed : permissionSource system ∈ article.sources.map (·.sourceSystem)
  rows : ∀ row ∈ article.userPermissions,
    row.source = some (permissionSource system) ∨ internalRow row = true

/-- The article as its own policy leaves it: no provider, no row of one. -/
def internalPolicy (a : Article) : Article :=
  { a with
    sources := []
    userPermissions := a.userPermissions.filter internalRow }

/-- Admitted by the article's own policy. -/
def InternalAudience (u : User) (a : Article) : Prop :=
  canViewArticle u (internalPolicy a) = true

def sourceUser (acl : SourceAcl) (u : User) : Bool :=
  acl.mappedSourceUserIds.contains u.id

/-- A member of one of the departments the list's groups are mapped to. -/
def sourceMember (acl : SourceAcl) (u : User) : Bool :=
  meets (u.departments.map (·.id)) acl.mappedDepartmentIds

/-- Admitted by the provider. -/
def Granted (acl : SourceAcl) (u : User) : Prop :=
  sourceUser acl u = true ∨ sourceMember acl u = true

/-! ### What the two sides have in common -/

/-- A snapshot of the article, or of what earlier lists left of it. -/
structure Derived (i : AclSnapshot) (a : Article) : Prop where
  allowed : i.allowUserIds = (snapshotOf a).allowUserIds
  mode : a.visibility = .users → i.visibility = .users

/-- The mode of the snapshot lets the department in. -/
def admitsGroup (i : AclSnapshot) (id : Id) : Bool :=
  i.visibility != .users &&
    (i.visibility == .publicContent || i.departmentIds.isEmpty || i.departmentIds.contains id)

def groupAdmitted (acl : SourceAcl) (i : AclSnapshot) : Bool :=
  acl.mappedDepartmentIds.any (admitsGroup i)

/-- The mapped departments of the company that are let in. -/
def commonDepartments (dir : Directory) (acl : SourceAcl) (i : AclSnapshot) (a : Article) :
    List Department :=
  dir.departments.filter fun d =>
    acl.mappedDepartmentIds.contains d.id && admitsGroup i d.id &&
      d.companyDomain == a.companyDomain

/-- The article with these departments in the place of its own. -/
def narrowed (dir : Directory) (acl : SourceAcl) (i : AclSnapshot) (a : Article) : Article :=
  { a with departments := commonDepartments dir acl i a }

def listed (u : User) (a : Article) : Bool := allowed u (internalPolicy a)

/-- A user of the list who is on the article's own list too, where it has one. -/
def direct (acl : SourceAcl) (i : AclSnapshot) (u : User) (a : Article) : Bool :=
  sourceUser acl u && (i.visibility == .publicContent || listed u a)

/-- The audience of a department: a membership, and a shared one where the content is
restricted. -/
def memberAudience (u : User) (a : Article) : Bool :=
  (a.sensitivity != .restricted || sharesDepartment u a) && namesActive (memberDepartmentNames u) a

/-- An active account of the company in a mapped department. -/
def activeMember (dir : Directory) (acl : SourceAcl) (u : User) (a : Article) : Bool :=
  (sourceGroupMemberIds dir a.companyDomain acl.mappedDepartmentIds).contains u.id

/-- Admitted by both sides, and dropped. -/
inductive Lost (dir : Directory) (acl : SourceAcl) (i : AclSnapshot) (u : User)
    (a : Article) : Prop where
  /-- The read grant is over an owned department the list does not map. -/
  | uncovered (internal : InternalAudience u a) (granted : Granted acl u)
      (dropped : covers u .articleRead (narrowed dir acl i a).resource = false)
  /-- Neither a user of both lists nor a member of a common department. -/
  | mixed (internal : InternalAudience u a) (granted : Granted acl u)
      (notDirect : direct acl i u a = false)
      (notShared : sharesDepartment u (narrowed dir acl i a) = false)
  /-- The governance grant that opens the unpublished content is over a dropped department. -/
  | state (internal : InternalAudience u a) (granted : Granted acl u)
      (group : groupAdmitted acl i = true) (refused : openState u (narrowed dir acl i a) = false)
  /-- The common department is no membership: it is inactive. -/
  | membership (internal : InternalAudience u a) (granted : Granted acl u)
      (group : groupAdmitted acl i = true) (notListed : listed u a = false)
      (notDirect : direct acl i u a = false)
      (refused : memberAudience u (narrowed dir acl i a) = false)
  /-- On the article's own list, and a member only of what the directory does not count. -/
  | uncounted (internal : InternalAudience u a) (granted : Granted acl u)
      (group : groupAdmitted acl i = true) (onList : listed u a = true)
      (notUser : sourceUser acl u = false) (notMember : activeMember dir acl u a = false)

/-- What the rows and departments of the intersection ask of everybody. -/
structure Reached (dir : Directory) (acl : SourceAcl) (i : AclSnapshot) (u : User)
    (a : Article) : Prop where
  live : a.live = true
  covered : covers u .articleRead (narrowed dir acl i a).resource = true
  notDenied : denied u (internalPolicy a) = false
  source : direct acl i u a = true ∨ sharesDepartment u (narrowed dir acl i a) = true

/-- What they ask where a mapped department is let in. -/
structure ReachedByGroup (dir : Directory) (acl : SourceAcl) (i : AclSnapshot) (u : User)
    (a : Article) : Prop
    extends Reached dir acl i u a where
  group : groupAdmitted acl i = true
  counted : listed u a = true → sourceUser acl u = true ∨ activeMember dir acl u a = true
  state : openState u (narrowed dir acl i a) = true
  audience : listed u a = true ∨ direct acl i u a = true ∨
    memberAudience u (narrowed dir acl i a) = true

/-- Refused by the article's own policy, and let in. -/
inductive Gained (dir : Directory) (acl : SourceAcl) (i : AclSnapshot) (u : User)
    (a : Article) : Prop where
  /-- A row for a listed user opens unpublished content. -/
  | unpublished (reached : Reached dir acl i u a) (noGroup : groupAdmitted acl i = false)
      (mode : a.visibility ≠ .users) (refused : openState u a = false)
  /-- A row for a user who is not of the article's departments. -/
  | outsider (reached : Reached dir acl i u a) (noGroup : groupAdmitted acl i = false)
      (mode : a.visibility ≠ .users) (notListed : listed u a = false)
      (refused : memberAudience u a = false)
  /-- A mapped department the article did not have brings the read grant. -/
  | covered (reached : ReachedByGroup dir acl i u a)
      (refused : covers u .articleRead a.resource = false)
  /-- It brings the governance grant. -/
  | groupState (reached : ReachedByGroup dir acl i u a) (refused : openState u a = false)
  /-- It brings the membership. -/
  | groupOutsider (reached : ReachedByGroup dir acl i u a) (notListed : listed u a = false)
      (refused : memberAudience u a = false)

section Sides

variable {dir : Directory} {acl : SourceAcl} {i : AclSnapshot} {u : User} {a : Article}

theorem openAudience_of_scoped (hu : hasFullCompanyArticleAccess u = false) (b : Article) :
    openAudience u b = (allowed u b || memberAudience u b) := by
  simp [openAudience, memberAudience, hu]

theorem openState_congr {b c : Article} (hstatus : b.status = c.status)
    (hres : b.resource = c.resource) : openState u b = openState u c := by
  have howner : b.ownerId = c.ownerId := congrArg Resource.ownerId hres
  simp only [openState, isOwner, governanceAccess, hstatus, hres, howner]

theorem memberAudience_congr {b c : Article} (hsens : b.sensitivity = c.sensitivity)
    (hdept : b.dept = c.dept) (hdeps : b.departments = c.departments) :
    memberAudience u b = memberAudience u c := by
  simp only [memberAudience, sharesDepartment, namesActive, activeSharedNames, hsens, hdept, hdeps]

/-- **The article's own policy**, as a conjunction. -/
theorem internalAudience_iff (hu : hasFullCompanyArticleAccess u = false) :
    InternalAudience u a ↔
      a.live = true ∧ covers u .articleRead a.resource = true ∧
        denied u (internalPolicy a) = false ∧ (a.visibility = .users → listed u a = true) ∧
        (a.visibility ≠ .users → openState u a = true ∧
          (listed u a = true ∨ memberAudience u a = true)) := by
  have hstate : openState u (internalPolicy a) = openState u a := openState_congr rfl rfl
  have hmember : memberAudience u (internalPolicy a) = memberAudience u a :=
    memberAudience_congr rfl rfl rfl
  have hsource : sourceAclAllows u (internalPolicy a) = true := rfl
  rw [InternalAudience, canViewArticle_iff, openAudience_of_scoped hu, hstate, hmember, hsource,
    Bool.or_eq_true]
  simp only [true_and]
  rfl

/-! ### What the intersection holds -/

theorem contains_groupIds (id : Id) :
    (intersectionWith dir i acl a.companyDomain).groupIds.contains id =
      (acl.mappedDepartmentIds.contains id && admitsGroup i id) := by
  rw [intersectionWith, groupIds_contains]
  rfl

theorem groupIds_isEmpty :
    (intersectionWith dir i acl a.companyDomain).groupIds.isEmpty =
      !groupAdmitted acl i := by
  rw [Bool.eq_iff_iff, List.isEmpty_iff, List.eq_nil_iff_forall_not_mem]
  simp only [← List.contains_iff_mem, contains_groupIds, groupAdmitted, Bool.not_eq_true',
    List.any_eq_false, Bool.and_eq_true, not_and]

theorem effectiveDepartments_eq :
    effectiveDepartments dir a.companyDomain
        (intersectionWith dir i acl a.companyDomain).groupIds =
      commonDepartments dir acl i a := by
  unfold effectiveDepartments
  split
  · rename_i hnone
    rw [groupIds_isEmpty] at hnone
    refine (List.filter_eq_nil_iff.mpr fun d _ hd => ?_).symm
    simp only [Bool.and_eq_true] at hd
    have hany : groupAdmitted acl i = true :=
      List.any_eq_true.mpr ⟨d.id, List.contains_iff_mem.mp hd.1.1, hd.1.2⟩
    simp [hany] at hnone
  · simp only [contains_groupIds, commonDepartments]

theorem commonDepartments_of_none (h : groupAdmitted acl i = false) :
    commonDepartments dir acl i a = [] := by
  rw [← effectiveDepartments_eq, effectiveDepartments, groupIds_isEmpty, h]
  rfl

theorem sharesDepartment_of_none (h : groupAdmitted acl i = false) :
    sharesDepartment u (narrowed dir acl i a) = false := by
  simp [sharesDepartment, narrowed, commonDepartments_of_none h, meets]

theorem sourceMember_of_shares (h : sharesDepartment u (narrowed dir acl i a) = true) :
    sourceMember acl u = true := by
  obtain ⟨id, hu, hid⟩ := meets_iff.mp h
  obtain ⟨d, hd, rfl⟩ := List.mem_map.mp hid
  have hc := (List.mem_filter.mp hd).2
  simp only [Bool.and_eq_true] at hc
  exact meets_iff.mpr ⟨d.id, hu, List.contains_iff_mem.mp hc.1.1⟩

theorem contains_allowUserIds (hi : Derived i a) :
    i.allowUserIds.contains u.id = listed u a := by
  rw [hi.allowed, Bool.eq_iff_iff, List.contains_iff_mem]
  simp only [snapshotOf, listed, allowed, hasEffect, internalPolicy, List.mem_map, List.mem_filter,
    List.any_eq_true, Bool.and_eq_true, beq_iff_eq]
  constructor
  · rintro ⟨row, ⟨hrow, heffect, hinternal⟩, huser⟩
    exact ⟨row, ⟨hrow, hinternal⟩, huser, heffect⟩
  · rintro ⟨row, ⟨hrow, hinternal⟩, huser, heffect⟩
    exact ⟨row, ⟨hrow, heffect, hinternal⟩, huser⟩

variable (dir acl u) in
theorem contains_directUserIds (hi : Derived i a) :
    (intersectionWith dir i acl a.companyDomain).directUserIds.contains u.id =
      direct acl i u a := by
  rw [intersectionWith, directUserIds_contains, contains_allowUserIds hi]
  rfl

end Sides

/-! ### The rewritten article -/

section Rewritten

variable {system : Option String} (x : Imported system) (dir : Directory) (acl : SourceAcl)
  (i : AclSnapshot) (u : User)

def rewritten : Article :=
  rewrite dir (permissionSource system) i acl x.article

/-- On the article's own list, with the source silent about the user. -/
def sourceDenied : Bool :=
  listed u x.article &&
    !(intersectionWith dir i acl
      x.article.companyDomain).internalUsersAllowedBySource.contains u.id

theorem kept_rows :
    x.article.userPermissions.filter (fun row => row.source != some (permissionSource system)) =
      x.article.userPermissions.filter internalRow := by
  refine List.filter_congr fun row hrow => ?_
  rw [Bool.eq_iff_iff, bne_iff_ne]
  constructor
  · intro hother
    exact (x.rows row hrow).resolve_left hother
  · intro hinternal hsource
    rw [internalRow, hsource, Option.any_some, List.contains_iff_mem.mpr x.remote] at hinternal
    cases hinternal

theorem any_sourceRow (p : String) (e e' : Effect) (ids : List Id) :
    (ids.map (sourceRow p e')).any (fun row => row.userId == u.id && row.effect == e) =
      (e' == e && ids.contains u.id) := by
  rw [Bool.eq_iff_iff]
  simp only [List.any_map, List.any_eq_true, Function.comp, sourceRow, Bool.and_eq_true,
    beq_iff_eq, List.contains_iff_mem]
  constructor
  · rintro ⟨id, hid, rfl, he⟩
    exact ⟨he, hid⟩
  · rintro ⟨he, hid⟩
    exact ⟨u.id, hid, rfl, he⟩

theorem hasEffect_rewritten (hi : Derived i x.article) (e : Effect) :
    hasEffect u (rewritten x dir acl i) e =
      (hasEffect u (internalPolicy x.article) e || (Effect.allow == e && direct acl i u x.article) ||
        (Effect.deny == e && sourceDenied x dir acl i u)) := by
  have hdirect := contains_directUserIds dir acl u hi
  have hlisted := contains_allowUserIds (u := u) hi
  simp only [hasEffect, rewritten, rewrite, rewrittenRows, kept_rows, List.any_append,
    any_sourceRow, internalPolicy]
  congr 2
  · rw [← hdirect]
    simp
  · rw [sourceDenied, ← hlisted]
    simp

theorem allowed_rewritten (hi : Derived i x.article) :
    allowed u (rewritten x dir acl i) = (listed u x.article || direct acl i u x.article) := by
  rw [allowed, hasEffect_rewritten x dir acl i u hi, listed, allowed]
  simp

theorem denied_rewritten (hi : Derived i x.article) :
    denied u (rewritten x dir acl i) =
      (denied u (internalPolicy x.article) || sourceDenied x dir acl i u) := by
  rw [denied, hasEffect_rewritten x dir acl i u hi, denied,
    show (Effect.allow == Effect.deny) = false from rfl]
  simp

theorem governedBy_rewritten : permissionSource system ∈ governedBy (rewritten x dir acl i) :=
  List.mem_filter.mpr ⟨x.governed, List.contains_iff_mem.mpr x.remote⟩

theorem allowedBy_rewritten (hi : Derived i x.article) :
    allowedBy (governedBy (rewritten x dir acl i)) u (rewritten x dir acl i) =
      direct acl i u x.article := by
  have hdirect := contains_directUserIds dir acl u hi
  rw [← hdirect, Bool.eq_iff_iff, List.contains_iff_mem]
  simp only [allowedBy, List.any_eq_true, Bool.and_eq_true, Option.any_eq_true, beq_iff_eq]
  constructor
  · rintro ⟨row, hrow, ⟨huser, heffect⟩, s, hs, hgoverned⟩
    have hremote := governedBy_subset _ s (List.contains_iff_mem.mp hgoverned)
    simp only [rewritten, rewrite, rewrittenRows, kept_rows, List.mem_append, List.mem_filter,
      List.mem_map] at hrow
    rcases hrow with (⟨-, hinternal⟩ | ⟨id, hid, rfl⟩) | ⟨id, -, rfl⟩
    · rw [internalRow, hs, Option.any_some, List.contains_iff_mem.mpr hremote] at hinternal
      cases hinternal
    · exact huser ▸ List.mem_dedup.mp hid
    · cases heffect
  · intro hid
    refine ⟨sourceRow (permissionSource system) .allow u.id, ?_, ⟨rfl, rfl⟩,
      permissionSource system, rfl, List.contains_iff_mem.mpr (governedBy_rewritten x dir acl i)⟩
    exact List.mem_append_left _ (List.mem_append_right _
      (List.mem_map_of_mem (List.mem_dedup.mpr hid)))

theorem sourceAclAllows_rewritten (hi : Derived i x.article) :
    sourceAclAllows u (rewritten x dir acl i) = true ↔
      direct acl i u x.article = true ∨
        sharesDepartment u (narrowed dir acl i x.article) = true := by
  have hgoverned : governedBy (rewritten x dir acl i) ≠ [] :=
    List.ne_nil_of_mem (governedBy_rewritten x dir acl i)
  have hshares : sharesDepartment u (rewritten x dir acl i) =
      sharesDepartment u (narrowed dir acl i x.article) := by
    simp only [sharesDepartment, rewritten, rewrite, effectiveDepartments_eq, narrowed]
  rw [sourceAclAllows_iff, allowedBy_rewritten x dir acl i u hi, hshares]
  simp only [hgoverned, false_or]

theorem sourceDenied_iff (hi : Derived i x.article) :
    sourceDenied x dir acl i u = true ↔
      listed u x.article = true ∧
        (acl.providerAclPresent || acl.sharepointAclPresent ||
          (!acl.mappedDepartmentIds.isEmpty || !acl.mappedSourceUserIds.isEmpty || acl.unmapped)) =
            true ∧
        sourceUser acl u = false ∧ activeMember dir acl u x.article = false := by
  rw [sourceDenied, Bool.and_eq_true, Bool.not_eq_true']
  refine and_congr_right fun hl => ?_
  exact not_allowedBySource _ _ _ _ _ _ _ _ ((contains_allowUserIds hi).trans hl)

theorem resource_rewritten :
    (rewritten x dir acl i).resource = (narrowed dir acl i x.article).resource := by
  simp only [Article.resource, rewritten, rewrite, effectiveDepartments_eq, narrowed]

theorem openState_rewritten :
    openState u (rewritten x dir acl i) = openState u (narrowed dir acl i x.article) :=
  openState_congr rfl (resource_rewritten x dir acl i)

theorem openAudience_rewritten (hi : Derived i x.article)
    (hu : hasFullCompanyArticleAccess u = false) :
    openAudience u (rewritten x dir acl i) = true ↔
      listed u x.article = true ∨ direct acl i u x.article = true ∨
        memberAudience u (narrowed dir acl i x.article) = true := by
  have hmember : memberAudience u (rewritten x dir acl i) =
      memberAudience u (narrowed dir acl i x.article) :=
    memberAudience_congr rfl rfl (congrArg Resource.departments (resource_rewritten x dir acl i))
  rw [openAudience_of_scoped hu, allowed_rewritten x dir acl i u hi, hmember]
  simp only [Bool.or_eq_true, or_assoc]

theorem visibility_rewritten_of_group (h : groupAdmitted acl i = true) :
    (rewritten x dir acl i).visibility = .department := by
  have hsome : (intersectionWith dir i acl
      x.article.companyDomain).groupIds.isEmpty = false := by
    rw [groupIds_isEmpty, h]
    rfl
  exact visibility_of_group _ _ _ _ _ _ _ _ hsome

theorem visibility_rewritten_of_direct (hi : Derived i x.article)
    (h : groupAdmitted acl i = false) (hd : direct acl i u x.article = true) :
    (rewritten x dir acl i).visibility = .users := by
  have hnone : (intersectionWith dir i acl
      x.article.companyDomain).groupIds.isEmpty = true := by
    rw [groupIds_isEmpty, h]
    rfl
  have hsome : (intersectionWith dir i acl
      x.article.companyDomain).directUserIds.isEmpty = false := by
    rw [← contains_directUserIds dir _ _ hi, List.contains_iff_mem] at hd
    exact List.isEmpty_eq_false_iff.mpr (List.ne_nil_of_mem hd)
  exact visibility_of_direct _ _ _ _ _ _ _ _ hnone hsome

/-- **The article after the list**, as a conjunction. -/
theorem view_rewritten_iff (hi : Derived i x.article)
    (hu : hasFullCompanyArticleAccess u = false) :
    canViewArticle u (rewritten x dir acl i) = true ↔
      if groupAdmitted acl i then ReachedByGroup dir acl i u x.article
      else Reached dir acl i u x.article := by
  have hcovers : covers u .articleRead (rewritten x dir acl i).resource =
      covers u .articleRead (narrowed dir acl i x.article).resource := by
    rw [resource_rewritten]
  have hlive : (rewritten x dir acl i).live = x.article.live := rfl
  rw [canViewArticle_iff, hlive, hcovers, denied_rewritten x dir acl i u hi,
    sourceAclAllows_rewritten x dir acl i u hi, openState_rewritten,
    openAudience_rewritten x dir acl i u hi hu, allowed_rewritten x dir acl i u hi,
    Bool.or_eq_false_iff, Bool.or_eq_true]
  cases hg : groupAdmitted acl i with
  | true =>
    have hvis := visibility_rewritten_of_group x dir acl i hg
    have hgroups : acl.mappedDepartmentIds.isEmpty = false := by
      obtain ⟨id, hid, -⟩ := List.any_eq_true.mp hg
      exact List.isEmpty_eq_false_iff.mpr (List.ne_nil_of_mem hid)
    have hcounted : sourceDenied x dir acl i u = false ↔
        (listed u x.article = true →
          sourceUser acl u = true ∨ activeMember dir acl u x.article = true) := by
      rw [← Bool.not_eq_true, sourceDenied_iff x dir acl i u hi, hgroups]
      cases sourceUser acl u <;> cases activeMember dir acl u x.article <;> simp
    rw [hvis, hcounted]
    constructor
    · rintro ⟨hl, hc, ⟨hd, hn⟩, hs, -, hrest⟩
      obtain ⟨hstate, haudience⟩ := hrest (by decide)
      exact ⟨⟨hl, hc, hd, hs⟩, hg, hn, hstate, haudience⟩
    · rintro ⟨⟨hl, hc, hd, hs⟩, -, hn, hstate, haudience⟩
      exact ⟨hl, hc, ⟨hd, hn⟩, hs, fun h => absurd h (by decide), fun _ => ⟨hstate, haudience⟩⟩
  | false =>
    constructor
    · rintro ⟨hl, hc, ⟨hd, -⟩, hs, -⟩
      exact ⟨hl, hc, hd, hs⟩
    · rintro ⟨hl, hc, hd, hs⟩
      have hdirect : direct acl i u x.article = true :=
        hs.resolve_right (by rw [sharesDepartment_of_none hg]; decide)
      have hvis := visibility_rewritten_of_direct x dir acl i u hi hg hdirect
      have hcounted : sourceDenied x dir acl i u = false := by
        rw [← Bool.not_eq_true, sourceDenied_iff x dir acl i u hi]
        rintro ⟨-, -, huser, -⟩
        rw [direct, huser] at hdirect
        cases hdirect
      exact ⟨hl, hc, ⟨hd, hcounted⟩, hs, fun _ => Or.inr hdirect, fun h => absurd hvis h⟩

end Rewritten

/-! ### Where the two part -/

section Parting

variable {system : Option String} (x : Imported system) (dir : Directory) (acl : SourceAcl)
  (u : User)

variable {i : AclSnapshot} {a : Article}

theorem Reached.granted (h : Reached dir acl i u a) : Granted acl u := by
  rcases h.source with hdirect | hshares
  · exact Or.inl (Bool.and_eq_true _ _ ▸ hdirect).1
  · exact Or.inr (sourceMember_of_shares hshares)

theorem covers_of_narrowed (h : groupAdmitted acl i = false)
    (hc : covers u .articleRead (narrowed dir acl i a).resource = true) :
    covers u .articleRead a.resource = true := by
  have hnames : namesArticle (ownedDepartmentNames u) (narrowed dir acl i a) = true →
      namesArticle (ownedDepartmentNames u) a = true := by
    simp only [namesArticle, sharedNames, narrowed, commonDepartments_of_none h, List.map_nil,
      Bool.or_eq_true]
    rintro (hprimary | hnone)
    · exact Or.inl hprimary
    · simp [meets] at hnone
  rw [covers_article] at hc ⊢
  simp only [Bool.or_eq_true, Bool.and_eq_true] at hc ⊢
  exact hc.imp_left (Or.imp_right (And.imp_right (And.imp_right hnames)))

/-- The users the intersection drops though both sides admit them. -/
theorem lost_iff (hi : Derived i x.article)
    (hu : hasFullCompanyArticleAccess u = false) :
    Lost dir acl i u x.article ↔
      (InternalAudience u x.article ∧ Granted acl u) ∧
        ¬ canViewArticle u (rewritten x dir acl i) = true := by
  rw [view_rewritten_iff x dir acl i u hi hu]
  constructor
  · intro h
    cases h with
    | uncovered hi hgr hdropped =>
      refine ⟨⟨hi, hgr⟩, ?_⟩
      split
      · rintro ⟨⟨-, hc, -, -⟩, -⟩
        simp [hdropped] at hc
      · rintro ⟨-, hc, -, -⟩
        simp [hdropped] at hc
    | mixed hi hgr hdirect hshared =>
      refine ⟨⟨hi, hgr⟩, ?_⟩
      split
      · rintro ⟨⟨-, -, -, hs⟩, -⟩
        simp [hdirect, hshared] at hs
      · rintro ⟨-, -, -, hs⟩
        simp [hdirect, hshared] at hs
    | state hi hgr hg hrefused =>
      refine ⟨⟨hi, hgr⟩, ?_⟩
      rw [if_pos hg]
      rintro ⟨-, -, -, hstate, -⟩
      simp [hrefused] at hstate
    | membership hi hgr hg hlisted hdirect hrefused =>
      refine ⟨⟨hi, hgr⟩, ?_⟩
      rw [if_pos hg]
      rintro ⟨-, -, -, -, haudience⟩
      simp [hlisted, hdirect, hrefused] at haudience
    | uncounted hi hgr hg hlisted huser hmember =>
      refine ⟨⟨hi, hgr⟩, ?_⟩
      rw [if_pos hg]
      rintro ⟨-, -, hcounted, -, -⟩
      simp [huser, hmember, hlisted] at hcounted
  · rintro ⟨⟨hi, hgr⟩, hview⟩
    obtain ⟨hlive, -, hdenied, -, -⟩ := (internalAudience_iff hu).mp hi
    by_contra hlost
    have hcovered : covers u .articleRead (narrowed dir acl i x.article).resource = true := by
      by_contra hc
      exact hlost (.uncovered hi hgr (Bool.not_eq_true _ ▸ hc))
    have hsource : direct acl i u x.article = true ∨
        sharesDepartment u (narrowed dir acl i x.article) = true := by
      by_contra hs
      rw [not_or, Bool.not_eq_true, Bool.not_eq_true] at hs
      exact hlost (.mixed hi hgr hs.1 hs.2)
    have hreached : Reached dir acl i u x.article := ⟨hlive, hcovered, hdenied, hsource⟩
    split at hview
    · rename_i hg
      refine hview ⟨hreached, hg, fun hl => ?_, ?_, ?_⟩
      · by_contra hm
        rw [not_or, Bool.not_eq_true, Bool.not_eq_true] at hm
        exact hlost (.uncounted hi hgr hg hl hm.1 hm.2)
      · by_contra hstate
        exact hlost (.state hi hgr hg (Bool.not_eq_true _ ▸ hstate))
      · by_contra ha
        rw [not_or, not_or, Bool.not_eq_true, Bool.not_eq_true, Bool.not_eq_true] at ha
        exact hlost (.membership hi hgr hg ha.1 ha.2.1 ha.2.2)
    · exact hview hreached

theorem ReachedByGroup.mode (hi : Derived i a) (h : ReachedByGroup dir acl i u a) :
    a.visibility ≠ .users := by
  obtain ⟨id, -, hadmits⟩ := List.any_eq_true.mp h.group
  simp only [admitsGroup, Bool.and_eq_true, bne_iff_ne] at hadmits
  exact fun hv => hadmits.1 (hi.mode hv)

theorem internal_of_group (hi : Derived i a) (hu : hasFullCompanyArticleAccess u = false)
    (h : ReachedByGroup dir acl i u a) (hgained : ¬ Gained dir acl i u a) : InternalAudience u a := by
  refine (internalAudience_iff hu).mpr
    ⟨h.live, ?_, h.notDenied, fun hv => absurd hv (h.mode dir acl u hi), fun _ => ⟨?_, ?_⟩⟩
  · by_contra hc
    exact hgained (.covered h (Bool.not_eq_true _ ▸ hc))
  · by_contra hstate
    exact hgained (.groupState h (Bool.not_eq_true _ ▸ hstate))
  · by_contra ha
    rw [not_or, Bool.not_eq_true, Bool.not_eq_true] at ha
    exact hgained (.groupOutsider h ha.1 ha.2)

theorem internal_of_direct (hi : Derived i a) (hu : hasFullCompanyArticleAccess u = false)
    (hg : groupAdmitted acl i = false) (h : Reached dir acl i u a) (hgained : ¬ Gained dir acl i u a) :
    InternalAudience u a := by
  have hdirect : direct acl i u a = true :=
    h.source.resolve_right (by rw [sharesDepartment_of_none hg]; decide)
  refine (internalAudience_iff hu).mpr
    ⟨h.live, covers_of_narrowed dir acl u hg h.covered, h.notDenied, fun hv => ?_,
      fun hv => ⟨?_, ?_⟩⟩
  · simp only [direct, hi.mode hv, Bool.and_eq_true] at hdirect
    exact hdirect.2
  · by_contra hstate
    exact hgained (.unpublished h hg hv (Bool.not_eq_true _ ▸ hstate))
  · by_contra ha
    rw [not_or, Bool.not_eq_true, Bool.not_eq_true] at ha
    exact hgained (.outsider h hg hv ha.1 ha.2)

/-- The users it admits though the article's own policy does not. -/
theorem gained_iff (hi : Derived i x.article)
    (hu : hasFullCompanyArticleAccess u = false) :
    Gained dir acl i u x.article ↔
      canViewArticle u (rewritten x dir acl i) = true ∧
        ¬ (InternalAudience u x.article ∧ Granted acl u) := by
  rw [view_rewritten_iff x dir acl i u hi hu]
  constructor
  · have group : ∀ h : ReachedByGroup dir acl i u x.article,
        if groupAdmitted acl i then ReachedByGroup dir acl i u x.article
        else Reached dir acl i u x.article := fun h => by rwa [if_pos h.group]
    intro h
    cases h with
    | unpublished hr hg hv hrefused =>
      refine ⟨by rwa [if_neg (by simp [hg])], fun ⟨hinternal, _⟩ => ?_⟩
      obtain ⟨-, -, -, -, hopen⟩ := (internalAudience_iff hu).mp hinternal
      simp [(hopen hv).1] at hrefused
    | outsider hr hg hv hlisted hrefused =>
      refine ⟨by rwa [if_neg (by simp [hg])], fun ⟨hinternal, _⟩ => ?_⟩
      obtain ⟨-, -, -, -, hopen⟩ := (internalAudience_iff hu).mp hinternal
      simpa [hlisted, hrefused] using (hopen hv).2
    | covered hr hrefused =>
      refine ⟨group hr, fun ⟨hinternal, _⟩ => ?_⟩
      obtain ⟨-, hc, -⟩ := (internalAudience_iff hu).mp hinternal
      simp [hc] at hrefused
    | groupState hr hrefused =>
      refine ⟨group hr, fun ⟨hinternal, _⟩ => ?_⟩
      obtain ⟨-, -, -, -, hopen⟩ := (internalAudience_iff hu).mp hinternal
      simp [(hopen (hr.mode dir acl u hi)).1] at hrefused
    | groupOutsider hr hlisted hrefused =>
      refine ⟨group hr, fun ⟨hinternal, _⟩ => ?_⟩
      obtain ⟨-, -, -, -, hopen⟩ := (internalAudience_iff hu).mp hinternal
      simpa [hlisted, hrefused] using (hopen (hr.mode dir acl u hi)).2
  · rintro ⟨hview, hneither⟩
    by_contra hgained
    split at hview
    · exact hneither ⟨internal_of_group dir acl u hi hu hview hgained,
        Reached.granted dir acl u hview.toReached⟩
    · rename_i hg
      exact hneither ⟨internal_of_direct dir acl u hi hu (Bool.not_eq_true _ ▸ hg) hview hgained,
        Reached.granted dir acl u hview⟩

end Parting

end QnscKb.Sync
