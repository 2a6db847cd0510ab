import QnscKb.Access.Permissions

/-!
# Access — ArticleFilters

`ArticleRepository._authorized_article_filters` (`src/repositories/article.py`), the conjunction
every read query carries, as a predicate on an article and the department table.  `listAdmits_eq`
reads it as seven tests, next to the five of `canViewArticle_eq`.
-/

namespace QnscKb.Access
open QnscKb.Where

/-! ### The conjuncts -/

def hasArticleReadPermission (u : User) : Bool :=
  holdsAny u .articleRead

/-- An active department of the article's company carries the name of its primary one. -/
def primaryDepartmentActive (table : List Department) (a : Article) : Bool :=
  table.any fun d => d.companyDomain == a.companyDomain && d.name == a.dept && d.active

/-- `or_(Article.dept.in_(names), Article.departments.any(Department.name.in_(names)))`. -/
def departmentScope (names : List String) (a : Article) : Bool :=
  if names.isEmpty then false else namesArticle names a

def memberOrLegacyNames (u : User) : List String :=
  memberDepartmentNames u ++ (u.dept.filter (· != "")).toList

/-- The audience conjunct of a reader that is neither global nor company-wide. -/
def scopedAudience (u : User) (a : Article) : Bool :=
  let ownedScope :=
    if hasPermission u .articleRead none .department then
      departmentScope (ownedDepartmentNames u) a
    else false
  a.visibility != .users &&
      (departmentScope (memberOrLegacyNames u) a ||
        (a.sensitivity == .publicContent || a.ownerId == some u.id || allowed u a || ownedScope)) ||
    a.visibility == .users && allowed u a

/-- The audience conjunct of a global or company-wide reader. -/
def broadAudience (u : User) (a : Article) : Bool :=
  a.visibility != .users || allowed u a

def sourceFilter (u : User) (a : Article) : Bool :=
  let governed := !(governedBy a).isEmpty
  let byDepartment := if u.departments.isEmpty then false else sharesDepartment u a
  !governed || governed && (allowedBy SOURCE_ACL_PROVIDERS u a || byDepartment)

def unpublishedConditions (u : User) : List (Article → Bool) :=
  if hasPermission u .articleReview none .global || hasPermission u .articlePublish none .global
  then [fun _ => true]
  else if hasPermission u .articleReview none .company ||
      hasPermission u .articlePublish none .company then [fun _ => true]
  else
    (if hasPermission u .articleReview none .department ||
        hasPermission u .articlePublish none .department then
      if (ownedDepartmentNames u).isEmpty then []
      else [namesArticle (ownedDepartmentNames u)]
    else []) ++
    (if governanceKeys.any fun key => hasPermission u key none .own then
      [fun a => a.ownerId == some u.id]
    else [])

def stateFilter (u : User) (a : Article) : Bool :=
  a.status == .published || (unpublishedConditions u).any fun c => c a

def authorizedArticleFilters (table : List Department) (u : User) : List (Article → Bool) :=
  if !hasArticleReadPermission u then [fun _ => false]
  else
    let globalRead := hasPermission u .articleRead none .global
    [fun a => a.lifecycleStatus == .active, fun a => a.status != .deleted,
      primaryDepartmentActive table, fun a => !denied u a] ++
    (if globalRead then [] else [fun a => a.companyDomain == u.companyDomain]) ++
    [if globalRead || hasFullCompanyArticleAccess u then broadAudience u else scopedAudience u,
      sourceFilter u, stateFilter u]

def listAdmits (table : List Department) (u : User) (a : Article) : Bool :=
  admits (authorizedArticleFilters table u) a

/-! ### The tests it conjoins -/

/-- The review and publish keys, the ones the listing of unpublished content asks for. -/
def holdsWide (u : User) : Bool :=
  grants u .articleReview .global || grants u .articleReview .company ||
    grants u .articlePublish .global || grants u .articlePublish .company

def holdsDepartmental (u : User) : Bool :=
  grants u .articleReview .department || grants u .articlePublish .department

/-- A governance key that answers for `own` without a resource. -/
def holdsOwn (u : User) : Bool :=
  governanceKeys.any fun key =>
    grants u key .global || grants u key .company || grants u key .own

/-- What listing demands of unpublished content. -/
def listState (u : User) (a : Article) : Bool :=
  a.status == .published || holdsWide u ||
    holdsDepartmental u && namesArticle (ownedDepartmentNames u) a || holdsOwn u && isOwner u a

/-- A read grant that reaches departments, as a check without a resource answers it. -/
def readsDepartments (u : User) : Bool :=
  grants u .articleRead .global || grants u .articleRead .company ||
    grants u .articleRead .department

/-- What listing demands of the audience of an article that is not for listed users. -/
def listAudience (u : User) (a : Article) : Bool :=
  hasFullCompanyArticleAccess u || namesArticle (memberOrLegacyNames u) a ||
    a.sensitivity == .publicContent || isOwner u a || allowed u a ||
    readsDepartments u && namesArticle (ownedDepartmentNames u) a

def listSource (u : User) (a : Article) : Bool :=
  (governedBy a).isEmpty || allowedBy SOURCE_ACL_PROVIDERS u a || sharesDepartment u a

@[simp] theorem departmentScope_eq (names : List String) (a : Article) :
    departmentScope names a = namesArticle names a := by
  cases names with
  | nil => simp [departmentScope]
  | cons n ns => simp [departmentScope]

theorem sourceFilter_eq (u : User) (a : Article) : sourceFilter u a = listSource u a := by
  have hd : (if u.departments.isEmpty then false else sharesDepartment u a) =
      sharesDepartment u a := by
    cases hu : u.departments with
    | nil => simp [sharesDepartment, hu]
    | cons d ds => simp
  simp only [sourceFilter, listSource, hd]
  cases (governedBy a).isEmpty <;> simp

theorem unpublishedConditions_any (u : User) (a : Article) :
    (unpublishedConditions u).any (fun c => c a) =
      (holdsWide u || holdsDepartmental u && namesArticle (ownedDepartmentNames u) a ||
        holdsOwn u && isOwner u a) := by
  have hown : (governanceKeys.any fun key => hasPermission u key none .own) = holdsOwn u := by
    simp only [hasPermission_own, holdsOwn]
  simp only [unpublishedConditions, hasPermission_global, hasPermission_company,
    hasPermission_department, hown, holdsWide, holdsDepartmental]
  cases grants u .articleReview .global <;> cases grants u .articlePublish .global <;>
    cases grants u .articleReview .company <;> cases grants u .articlePublish .company <;> simp
  cases ho : ownedDepartmentNames u with
  | nil => cases holdsOwn u <;> simp [isOwner]
  | cons n ns =>
    cases grants u .articleReview .department <;> cases grants u .articlePublish .department <;>
      cases holdsOwn u <;> simp [isOwner]

theorem stateFilter_eq (u : User) (a : Article) : stateFilter u a = listState u a := by
  simp only [stateFilter, unpublishedConditions_any, listState, Bool.or_assoc]

theorem audienceFilter_eq (u : User) (a : Article) :
    (if hasFullCompanyArticleAccess u then broadAudience u else scopedAudience u) a =
      if a.visibility == .users then allowed u a else listAudience u a := by
  cases hf : hasFullCompanyArticleAccess u with
  | true => cases hv : a.visibility == .users <;> simp [broadAudience, listAudience, bne, hv, hf]
  | false =>
    cases hv : a.visibility == .users <;>
      simp [scopedAudience, listAudience, readsDepartments, isOwner, bne, hv, hf, Bool.or_assoc]

/-- **Listing an article**, as a conjunction. -/
theorem listAdmits_eq (table : List Department) (u : User) (a : Article) :
    listAdmits table u a =
      (holdsAny u .articleRead && a.live && primaryDepartmentActive table a && !denied u a &&
        (grants u .articleRead .global || sameCompany u a) &&
        (if a.visibility == .users then allowed u a else listAudience u a) &&
        listSource u a && listState u a) := by
  have hbroad : (grants u .articleRead .global || hasFullCompanyArticleAccess u) =
      hasFullCompanyArticleAccess u := by
    cases hg : grants u .articleRead .global with
    | true => simp [full_of_global hg]
    | false => rfl
  rw [← audienceFilter_eq, ← sourceFilter_eq, ← stateFilter_eq]
  simp only [listAdmits, authorizedArticleFilters, hasArticleReadPermission, hasPermission_global,
    hbroad, Article.live, sameCompany]
  cases holdsAny u .articleRead <;> cases grants u .articleRead .global <;> simp <;> grind

end QnscKb.Access
