import QnscKb.Access.Agreement
import QnscKb.Access.Fingerprint

/-!
# Access — CacheSafety

Two states of the user and department tables with one fingerprint.  An article row names its
departments by id, and each state resolves the ids in its own table.

`SameAt` says that two states answer the tests alike where a row is placed (company, departments,
owner); with equal payloads this is all it takes, and nothing less does.
-/

namespace QnscKb.Access
open QnscKb.Where

/-! ### States and rows -/

/-- The rows a decision reads besides the article's own. -/
structure AccessState where
  user : User
  departments : List Department
  deriving DecidableEq

/-- What places an article. -/
structure Placement where
  companyDomain : String
  dept : String
  departmentIds : List Id
  ownerId : Option Id
  deriving DecidableEq

/-- An article row with its association, permission and source rows. -/
structure ArticleRow extends Placement where
  id : Id
  sensitivity : Sensitivity
  visibility : Visibility
  status : ArticleStatus
  lifecycleStatus : LifecycleStatus
  indexStatus : IndexStatus
  userPermissions : List ArticleUserPermission
  sources : List DocumentSource
  deriving DecidableEq

def resolve (table : List Department) (ids : List Id) : List Department :=
  ids.filterMap fun i => table.find? fun d => d.id == i

/-- The article as its readers load it from a department table. -/
def ArticleRow.load (row : ArticleRow) (table : List Department) : Article where
  id := row.id
  dept := row.dept
  companyDomain := row.companyDomain
  sensitivity := row.sensitivity
  visibility := row.visibility
  ownerId := row.ownerId
  status := row.status
  lifecycleStatus := row.lifecycleStatus
  indexStatus := row.indexStatus
  departments := resolve table row.departmentIds
  userPermissions := row.userPermissions
  sources := row.sources

/-- Every department the placement names is a row of the state. -/
def AccessState.stores (s : AccessState) (p : Placement) : Prop :=
  ∀ i ∈ p.departmentIds, ∃ d ∈ s.departments, d.id = i

def AccessState.opens (s : AccessState) (row : ArticleRow) : Bool :=
  canViewArticle s.user (row.load s.departments)

def AccessState.lists (s : AccessState) (row : ArticleRow) : Bool :=
  listAdmits s.departments s.user (row.load s.departments)

/-! ### Tests at a placement -/

/-- A published internal article of the placement, without permission or source rows. -/
def Placement.row (p : Placement) : ArticleRow where
  toPlacement := p
  id := 0
  sensitivity := .internal
  visibility := .department
  status := .published
  lifecycleStatus := .active
  indexStatus := .ready
  userPermissions := []
  sources := []

def AccessState.at (s : AccessState) (p : Placement) : Article := p.row.load s.departments

section Tests

variable (s : AccessState) (p : Placement)

def AccessState.reads : Bool := covers s.user .articleRead (s.at p).resource

/-- The user is of the audience a membership or the whole company makes. -/
def AccessState.member : Bool :=
  hasFullCompanyArticleAccess s.user || namesActive (memberDepartmentNames s.user) (s.at p)

def AccessState.shares : Bool := sharesDepartment s.user (s.at p)

def AccessState.owns : Bool := isOwner s.user (s.at p)

def AccessState.governs : Bool := governanceAccess s.user (s.at p)

def AccessState.inTenant : Bool :=
  holdsAny s.user .articleRead && (grants s.user .articleRead .global || sameCompany s.user (s.at p))

def AccessState.primary : Bool := primaryDepartmentActive s.departments (s.at p)

/-- The audience of listing that no row and no sensitivity decides. -/
def AccessState.named : Bool :=
  hasFullCompanyArticleAccess s.user || namesArticle (memberOrLegacyNames s.user) (s.at p) ||
    readsDepartments s.user && namesArticle (ownedDepartmentNames s.user) (s.at p)

def AccessState.shown : Bool :=
  holdsWide s.user ||
    holdsDepartmental s.user && namesArticle (ownedDepartmentNames s.user) (s.at p) ||
    holdsOwn s.user && s.owns p

end Tests

/-- Two states answer alike at a placement, test by test and only where an earlier test passes. -/
structure SameAt (s t : AccessState) (p : Placement) : Prop where
  reads : s.reads p = t.reads p
  member : s.reads p = true → s.member p = t.member p
  full : s.reads p = true → s.shares p = false →
    hasFullCompanyArticleAccess s.user = hasFullCompanyArticleAccess t.user
  governs : s.reads p = true → s.owns p = false → s.governs p = t.governs p
  primary : s.inTenant p = true → s.primary p = t.primary p
  named : s.inTenant p = true → s.primary p = true → s.owns p = false → s.named p = t.named p
  shown : s.inTenant p = true → s.primary p = true → s.shown p = t.shown p

/-! ### Decisions by tests -/

/-- The audience of opening, by tests. -/
def AccessState.openTo (s : AccessState) (row : ArticleRow) : Bool :=
  hasFullCompanyArticleAccess s.user || allowed s.user (row.load s.departments) ||
    (row.sensitivity != .restricted || s.shares row.toPlacement) &&
      namesActive (memberDepartmentNames s.user) (s.at row.toPlacement)

theorem AccessState.opens_eq (s : AccessState) (row : ArticleRow) :
    s.opens row =
      ((row.load s.departments).live && s.reads row.toPlacement &&
        !denied s.user (row.load s.departments) &&
        sourceAclAllows s.user (row.load s.departments) &&
        if row.visibility == .users then allowed s.user (row.load s.departments)
        else (!row.status.working || s.owns row.toPlacement || s.governs row.toPlacement) &&
          s.openTo row) :=
  canViewArticle_eq s.user (row.load s.departments)

theorem AccessState.lists_eq (s : AccessState) (row : ArticleRow) :
    s.lists row =
      (s.inTenant row.toPlacement && s.primary row.toPlacement &&
        ((row.load s.departments).live && !denied s.user (row.load s.departments) &&
          listSource s.user (row.load s.departments)) &&
        (if row.visibility == .users then allowed s.user (row.load s.departments)
          else s.named row.toPlacement || (row.sensitivity == .publicContent ||
            s.owns row.toPlacement || allowed s.user (row.load s.departments))) &&
        (row.status == .published || s.shown row.toPlacement)) := by
  have haudience : listAudience s.user (row.load s.departments) =
      (s.named row.toPlacement || (row.sensitivity == .publicContent ||
        s.owns row.toPlacement || allowed s.user (row.load s.departments))) := by
    rw [Bool.eq_iff_iff, listAudience_eq_true_iff]
    simp only [AccessState.named, Bool.or_eq_true, Bool.and_eq_true, beq_iff_eq]
    exact ⟨fun h => by tauto, fun h => by tauto⟩
  have hstate : listState s.user (row.load s.departments) =
      (row.status == .published || s.shown row.toPlacement) := by
    simp only [listState, AccessState.shown, Bool.or_assoc]
    rfl
  rw [AccessState.lists, listAdmits_eq, haudience, hstate]
  change (_ && _ && s.primary row.toPlacement && _ &&
    (grants s.user .articleRead .global || sameCompany s.user (s.at row.toPlacement)) && _ && _ && _)
    = _
  simp only [AccessState.inTenant]
  generalize holdsAny s.user .articleRead = held
  generalize (grants s.user .articleRead .global || sameCompany s.user (s.at row.toPlacement)) = ten
  cases held <;> cases ten <;> cases s.primary row.toPlacement <;>
    cases (row.load s.departments).live <;> cases denied s.user (row.load s.departments) <;>
    simp [Bool.and_comm]
  rfl

/-- An allow row opens the audience, a shared department or ordinary sensitivity leaves it to
membership, restricted content without one to the whole company. -/
theorem AccessState.openTo_eq (s : AccessState) (row : ArticleRow) :
    s.openTo row =
      (allowed s.user (row.load s.departments) ||
        if row.sensitivity != .restricted || s.shares row.toPlacement then s.member row.toPlacement
        else hasFullCompanyArticleAccess s.user) := by
  simp only [AccessState.openTo, AccessState.member]
  cases row.sensitivity != .restricted || s.shares row.toPlacement <;>
    cases hasFullCompanyArticleAccess s.user <;>
    cases allowed s.user (row.load s.departments) <;> simp

/-! ### Rows that single out a test -/

section Rows

variable (s : AccessState) (p : Placement)

/-- The placement, for listed users, with an allow row for the user. -/
def Placement.listed (p : Placement) (user : Id) : ArticleRow :=
  { p.row with visibility := .users, userPermissions := [⟨user, .allow, none⟩] }

def Placement.restricted (p : Placement) : ArticleRow :=
  { p.row with sensitivity := .restricted }

def Placement.draft (p : Placement) (user : Id) : ArticleRow :=
  { p.row with status := .draft, userPermissions := [⟨user, .allow, none⟩] }

@[simp] theorem opens_listed : s.opens (p.listed s.user.id) = s.reads p := by
  rw [AccessState.opens_eq, Bool.eq_iff_iff]
  simp [Placement.listed, Placement.row, ArticleRow.load, Article.live, denied, allowed, hasEffect,
    sourceAclAllows, governedBy]

@[simp] theorem lists_listed :
    s.lists (p.listed s.user.id) = (s.inTenant p && s.primary p) := by
  rw [AccessState.lists_eq, Bool.eq_iff_iff]
  simp [Placement.listed, Placement.row, ArticleRow.load, Article.live, denied, allowed, hasEffect,
    listSource, governedBy]

@[simp] theorem opens_row : s.opens p.row = (s.reads p && s.member p) := by
  rw [AccessState.opens_eq, AccessState.openTo_eq, Bool.eq_iff_iff]
  simp [Placement.row, ArticleRow.load, Article.live, denied, allowed, hasEffect, sourceAclAllows,
    governedBy, ArticleStatus.working]

@[simp] theorem lists_row :
    s.lists p.row = (s.inTenant p && s.primary p && (s.named p || s.owns p)) := by
  rw [AccessState.lists_eq, Bool.eq_iff_iff]
  simp [Placement.row, ArticleRow.load, Article.live, denied, allowed, hasEffect, listSource,
    governedBy]

theorem opens_restricted (h : s.shares p = false) :
    s.opens p.restricted = (s.reads p && hasFullCompanyArticleAccess s.user) := by
  have h' : s.shares p.restricted.toPlacement = false := h
  rw [AccessState.opens_eq, AccessState.openTo_eq, h', Bool.eq_iff_iff]
  simp [Placement.restricted, Placement.row, ArticleRow.load, Article.live, denied, allowed,
    hasEffect, sourceAclAllows, governedBy, ArticleStatus.working]

@[simp] theorem opens_draft :
    s.opens (p.draft s.user.id) = (s.reads p && (s.owns p || s.governs p)) := by
  rw [AccessState.opens_eq, AccessState.openTo_eq, Bool.eq_iff_iff]
  simp [Placement.draft, Placement.row, ArticleRow.load, Article.live, denied, allowed, hasEffect,
    sourceAclAllows, governedBy, ArticleStatus.working]

@[simp] theorem lists_draft :
    s.lists (p.draft s.user.id) = (s.inTenant p && s.primary p && s.shown p) := by
  rw [AccessState.lists_eq, Bool.eq_iff_iff]
  simp [Placement.draft, Placement.row, ArticleRow.load, Article.live, denied, allowed, hasEffect,
    listSource, governedBy]

end Rows

/-! ### What a row tells both states alike -/

theorem resolve_ids {table : List Department} {ids : List Id}
    (h : ∀ i ∈ ids, ∃ d ∈ table, d.id = i) (i : Id) :
    i ∈ (resolve table ids).map (·.id) ↔ i ∈ ids := by
  simp only [resolve, List.mem_map, List.mem_filterMap]
  constructor
  · rintro ⟨d, ⟨j, hj, hf⟩, rfl⟩
    have hid := List.find?_some hf
    rw [beq_iff_eq] at hid
    exact hid ▸ hj
  · intro hi
    obtain ⟨d, hd, hid⟩ := h i hi
    cases hf : table.find? fun d => d.id == i with
    | none => exact absurd (beq_iff_eq.mpr hid) (List.find?_eq_none.mp hf d hd)
    | some e =>
      have hid := List.find?_some hf
      exact ⟨e, ⟨i, hi, hf⟩, beq_iff_eq.mp hid⟩

section EqualPayloads

variable {s t : AccessState} (h : authorizationPayload s.user = authorizationPayload t.user)
  {row : ArticleRow} (hs : s.stores row.toPlacement) (ht : t.stores row.toPlacement)

include h

theorem hasEffect_of_payload (row : ArticleRow) (e : Effect) :
    hasEffect s.user (row.load s.departments) e = hasEffect t.user (row.load t.departments) e := by
  simp only [hasEffect, ArticleRow.load, id_eq_of_payload h]

theorem owns_of_payload (p : Placement) : s.owns p = t.owns p := by
  simp only [AccessState.owns, isOwner, AccessState.at, ArticleRow.load, id_eq_of_payload h]

theorem inTenant_of_payload (p : Placement) : s.inTenant p = t.inTenant p := by
  simp only [AccessState.inTenant, sameCompany, AccessState.at, ArticleRow.load,
    holdsAny_eq_of_payload h, grants_global_eq_of_payload h, company_eq_of_payload h]

theorem shares_of_payload {p : Placement} (hs : s.stores p) (ht : t.stores p) :
    s.shares p = t.shares p := by
  have hrow : ∀ i, i ∈ (s.at p).departments.map (·.id) ↔ i ∈ (t.at p).departments.map (·.id) :=
    fun i => (resolve_ids hs i).trans (resolve_ids ht i).symm
  rw [AccessState.shares, AccessState.shares, sharesDepartment, sharesDepartment,
    meets_congr_right hrow, meets_comm, meets_congr_right (departmentIds_of_payload h), meets_comm]

theorem allowedBy_of_payload (row : ArticleRow) (providers : List String) :
    allowedBy providers s.user (row.load s.departments) =
      allowedBy providers t.user (row.load t.departments) := by
  simp only [allowedBy, ArticleRow.load, id_eq_of_payload h]

theorem denied_of_payload (row : ArticleRow) :
    denied s.user (row.load s.departments) = denied t.user (row.load t.departments) :=
  hasEffect_of_payload h row .deny

theorem allowed_of_payload (row : ArticleRow) :
    allowed s.user (row.load s.departments) = allowed t.user (row.load t.departments) :=
  hasEffect_of_payload h row .allow

include hs ht

theorem sourceAclAllows_of_payload :
    sourceAclAllows s.user (row.load s.departments) =
      sourceAclAllows t.user (row.load t.departments) := by
  have hsh : sharesDepartment s.user (row.load s.departments) =
      sharesDepartment t.user (row.load t.departments) := shares_of_payload h hs ht
  have hg : governedBy (row.load s.departments) = governedBy (row.load t.departments) := rfl
  rw [sourceAclAllows, sourceAclAllows, hsh, hg, allowedBy_of_payload h]

theorem listSource_of_payload :
    listSource s.user (row.load s.departments) = listSource t.user (row.load t.departments) := by
  have hsh : sharesDepartment s.user (row.load s.departments) =
      sharesDepartment t.user (row.load t.departments) := shares_of_payload h hs ht
  have hg : governedBy (row.load s.departments) = governedBy (row.load t.departments) := rfl
  rw [listSource, listSource, hsh, hg, allowedBy_of_payload h]

theorem opens_of_sameAt (hp : SameAt s t row.toPlacement) : s.opens row = t.opens row := by
  have hlive : (row.load s.departments).live = (row.load t.departments).live := rfl
  rw [AccessState.opens_eq, AccessState.opens_eq, AccessState.openTo_eq, AccessState.openTo_eq,
    hlive, denied_of_payload h row, allowed_of_payload h row, sourceAclAllows_of_payload h hs ht,
    ← hp.reads]
  cases hr : s.reads row.toPlacement with
  | false => simp
  | true =>
    have hgoverns : (s.owns row.toPlacement || s.governs row.toPlacement) =
        (t.owns row.toPlacement || t.governs row.toPlacement) := by
      rw [← owns_of_payload h]
      cases ho : s.owns row.toPlacement with
      | true => rfl
      | false => rw [hp.governs hr ho]
    rw [← shares_of_payload h hs ht, ← hp.member hr, Bool.or_assoc, Bool.or_assoc, hgoverns]
    cases hsh : s.shares row.toPlacement with
    | true => simp
    | false => rw [hp.full hr hsh]

theorem lists_of_sameAt (hp : SameAt s t row.toPlacement) : s.lists row = t.lists row := by
  have hlive : (row.load s.departments).live = (row.load t.departments).live := rfl
  rw [AccessState.lists_eq, AccessState.lists_eq, hlive, denied_of_payload h row,
    allowed_of_payload h row, listSource_of_payload h hs ht, ← inTenant_of_payload h,
    ← owns_of_payload h]
  cases hten : s.inTenant row.toPlacement with
  | false => simp
  | true =>
    rw [← hp.primary hten]
    cases hpr : s.primary row.toPlacement with
    | false => simp
    | true =>
      rw [← hp.shown hten hpr]
      cases ho : s.owns row.toPlacement with
      | true => simp
      | false => rw [hp.named hten hpr ho]

end EqualPayloads

section LeastCondition

variable {s t : AccessState} (h : authorizationPayload s.user = authorizationPayload t.user)
  {p : Placement} (hs : s.stores p) (ht : t.stores p)
  (hsame : ∀ row : ArticleRow, s.stores row.toPlacement → t.stores row.toPlacement →
    s.opens row = t.opens row ∧ s.lists row = t.lists row)

include h hs ht hsame

theorem sameAt_of_decisions : SameAt s t p := by
  have hid := id_eq_of_payload h
  obtain ⟨hreads, hprimary⟩ := hsame (p.listed s.user.id) hs ht
  obtain ⟨hmember, hnamed⟩ := hsame p.row hs ht
  obtain ⟨hfull, -⟩ := hsame p.restricted hs ht
  obtain ⟨hgoverns, hshown⟩ := hsame (p.draft s.user.id) hs ht
  rw [opens_listed, hid, opens_listed] at hreads
  rw [lists_listed, hid, lists_listed, ← inTenant_of_payload h] at hprimary
  rw [opens_row, opens_row, ← hreads] at hmember
  rw [lists_row, lists_row, ← inTenant_of_payload h, ← owns_of_payload h] at hnamed
  rw [opens_draft, hid, opens_draft, ← hreads, ← owns_of_payload h] at hgoverns
  rw [lists_draft, hid, lists_draft, ← inTenant_of_payload h] at hshown
  have hpr : s.inTenant p = true → s.primary p = t.primary p := fun hten => by
    simpa only [hten, Bool.true_and] using hprimary
  refine ⟨hreads, fun hr => ?_, fun hr hsh => ?_, fun hr ho => ?_, hpr, fun hten hp ho => ?_,
    fun hten hp => ?_⟩
  · simpa only [hr, Bool.true_and] using hmember
  · rw [opens_restricted s p hsh, opens_restricted t p (shares_of_payload h hs ht ▸ hsh),
      ← hreads, hr] at hfull
    exact hfull
  · simpa only [hr, ho, Bool.true_and, Bool.false_or] using hgoverns
  · simpa only [hten, hp, ← hpr hten, ho, Bool.true_and, Bool.or_false] using hnamed
  · simpa only [hten, hp, ← hpr hten, Bool.true_and] using hshown

end LeastCondition

/-- **Cache safety**: two states with one payload decide every stored article alike exactly when
they answer alike at every placement. -/
theorem same_decisions_iff (s t : AccessState)
    (h : authorizationPayload s.user = authorizationPayload t.user) :
    (∀ row : ArticleRow, s.stores row.toPlacement → t.stores row.toPlacement →
      s.opens row = t.opens row ∧ s.lists row = t.lists row) ↔
      ∀ p : Placement, s.stores p → t.stores p → SameAt s t p :=
  ⟨fun hsame _ hs ht => sameAt_of_decisions h hs ht hsame,
    fun hp row hs ht => ⟨opens_of_sameAt h hs ht (hp row.toPlacement hs ht),
      lists_of_sameAt h hs ht (hp row.toPlacement hs ht)⟩⟩

/-- The state after the department is deactivated: the membership row stays. -/
def AccessState.deactivate (s : AccessState) (i : Id) : AccessState where
  user := { s.user with
    departments := s.user.departments.map fun d => if d.id = i then { d with active := false } else d }
  departments := s.departments.map fun d => if d.id = i then { d with active := false } else d

def engineerState : AccessState := ⟨engineer, [engineering, finance]⟩

theorem same_decisions_iff_deactivate :
    (∀ row : ArticleRow, engineerState.stores row.toPlacement →
      (engineerState.deactivate 1).stores row.toPlacement →
      engineerState.opens row = (engineerState.deactivate 1).opens row ∧
        engineerState.lists row = (engineerState.deactivate 1).lists row) ↔
      ∀ p : Placement, engineerState.stores p → (engineerState.deactivate 1).stores p →
        SameAt engineerState (engineerState.deactivate 1) p :=
  same_decisions_iff engineerState (engineerState.deactivate 1) (by decide)

/-- Deactivating a department changes what its members open and leaves their payload as it is. -/
theorem deactivation_keeps_payload :
    ¬ ∀ s t : AccessState, authorizationPayload s.user = authorizationPayload t.user →
      ∀ row : ArticleRow, s.stores row.toPlacement → t.stores row.toPlacement →
        s.opens row = t.opens row ∧ s.lists row = t.lists row := by
  intro h
  have hsame := h engineerState (engineerState.deactivate 1) (by decide)
    (Placement.row ⟨"qnsc.vn", "Engineering", [], none⟩)
    (fun _ hi => absurd hi List.not_mem_nil) (fun _ hi => absurd hi List.not_mem_nil)
  exact absurd hsame.1 (by decide)

end QnscKb.Access
